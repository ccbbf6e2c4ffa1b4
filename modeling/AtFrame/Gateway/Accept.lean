/-
Accepting a connection on a unix socket and on TCP.

Both callbacks take the object of `create_proto_fn_`, give it to the new session, set its buffer limits, and go on in the same
way with the socket. `session::create` takes the object out of the caller's pointer: the TCP callback asks the session for it,
the other one uses the empty pointer.

- `onEvtAcceptTcp_some`: the events of the model accept with an object;
- `accept_same_iff`: the two callbacks do the same exactly where there is no object to hand over;
- `accept_pipe_faults`: an object, and the pipe callback dereferences a null pointer.

The two callbacks are run on the same state, with the same answers of `create_proto_fn_` and of the allocator. The theorem has no
premise: it says of every status and every state whether they agree.
-/
import AtFrame.Gateway.NullOwner

namespace AtFrame.Gateway

open AtFrame.Lib

variable (e : GwEnv) (rec : Reentry)

/-! ## Model -/

/-- `set_recv_buffer_limit` -/
def setRecvBufferLimit (maxSize maxNumber : ℕ) (p : Proto) : Proto :=
  { p with reader := { p.reader with buffers := { p.reader.buffers with limitSize := maxSize, limitNumber := maxNumber } } }

/-- `set_send_buffer_limit` -/
def setSendBufferLimit (maxSize maxNumber : ℕ) (p : Proto) : Proto :=
  { p with writeBuffers := { p.writeBuffers with limitSize := maxSize, limitNumber := maxNumber } }

/-- the result of `create_proto_fn_`: no object, or a new one with its place on the random tape -/
def createProto (created : Option ℕ) : Option Proto := created.map fun seed => Proto.fresh e.offset 0 0 0 0 seed

/-- `session::create(mgr, proto)`: the session, which takes the object, and what is left in `proto` -/
def sessionCreate (proto : Option Proto) : Prog Fault World (Option ℕ × Option Proto) :=
  match proto with
  | none => return (none, none)
  | some p => do
    let s ← newSession 0 p
    return (some s, none)

/-- a call through `proto` -/
def callProto (proto : Option Proto) (f : Proto → Proto) : Prog Fault World (Option Proto) :=
  match proto with
  | some p => return some (f p)
  | none => throw .nullProto

/-- `on_evt_accept_tcp`; without a session only the socket is taken and closed -/
def onEvtAcceptTcp (status : ℤ) (created : Option ℕ) (peer : Peer) (initRes acceptRes : ℤ) : Prog Fault World Unit :=
  if status ≠ 0 then return ()
  else do
    let r ← sessionCreate (createProto e created)
    match r.1 with
    | none => return ()
    | some s => do
      let w ← get
      modifySess s fun x => { x with proto := setRecvBufferLimit msgLimit 2 x.proto }
      modifySess s fun x => { x with proto := setSendBufferLimit w.conf.sendBufferSize 0 x.proto }
      modifySess s fun x => { x with router := w.conf.defaultRouter }
      acceptSession e rec s peer initRes acceptRes

/-- `on_evt_accept_pipe` -/
def onEvtAcceptPipe (status : ℤ) (created : Option ℕ) (peer : Peer) (initRes acceptRes : ℤ) : Prog Fault World Unit :=
  if status ≠ 0 then return ()
  else do
    let r ← sessionCreate (createProto e created)
    match r.1 with
    | none => return ()
    | some s => do
      let w ← get
      let proto ← callProto r.2 (setRecvBufferLimit msgLimit 2)
      let _ ← callProto proto (setSendBufferLimit w.conf.sendBufferSize 0)
      modifySess s fun x => { x with router := w.conf.defaultRouter }
      acceptSession e rec s peer initRes acceptRes

/-! ## Results -/

variable {e rec} {w : World}

/-- what the TCP callback does with an object is the event of the model -/
theorem onEvtAcceptTcp_some (seed : ℕ) (peer : Peer) (initRes acceptRes : ℤ) :
    exec (onEvtAcceptTcp e rec 0 (some seed) peer initRes acceptRes) w =
      exec (acceptTcp e rec seed peer initRes acceptRes) w := by
  set base : World := { w with count := w.count + 1 }
  have hcreated : exec (onEvtAcceptTcp e rec 0 (some seed) peer initRes acceptRes) w =
      exec (do
        modifySess w.count fun x => { x with proto := setRecvBufferLimit msgLimit 2 x.proto }
        modifySess w.count fun x => { x with proto := setSendBufferLimit w.conf.sendBufferSize 0 x.proto }
        modifySess w.count fun x => { x with router := w.conf.defaultRouter }
        acceptSession e rec w.count peer initRes acceptRes)
      (base.setSess w.count (Session.create 0 (Proto.fresh e.offset 0 0 0 0 seed))) := rfl
  have hlimits : ∀ f g h : Session → Session, ∀ x y : Session, h (g (f x)) = y →
      exec (do modifySess w.count f; modifySess w.count g; modifySess w.count h
               acceptSession e rec w.count peer initRes acceptRes) (base.setSess w.count x) =
        exec (acceptSession e rec w.count peer initRes acceptRes) (base.setSess w.count y) := by
    rintro f g h x y rfl
    have hstep : ∀ (k : Session → Session) (z : Session),
        exec (modifySess w.count k) (base.setSess w.count z) = (.ok ⟨⟩, base.setSess w.count (k z)) := by
      intro k z
      change (Except.ok PUnit.unit, (base.setSess w.count z).setSess w.count (k ((base.setSess w.count z).sess w.count))) = _
      rw [World.setSess_sess, World.setSess_setSess]
    rw [exec_bind_ok (hstep f x), exec_bind_ok (hstep g (f x)), exec_bind_ok (hstep h (g (f x)))]
  rw [hcreated]
  exact hlimits _ _ _ _ (Session.create w.conf.defaultRouter (Proto.fresh e.offset msgLimit 2 w.conf.sendBufferSize 0 seed)) rfl

/-- the state of the manager and of its sessions without the addresses of the peers -/
def World.anonymous (w : World) : Core := { w.toCore with sess := fun s => { w.sess s with peer := {} } }

/-- two callbacks end in the same way and in the same state up to the peers, and no null object is dereferenced -/
structure SameAccept (tcp pipe : Prog Fault World Unit) (w : World) : Prop where
  result : (exec tcp w).1 = (exec pipe w).1
  state : (exec tcp w).2.anonymous = (exec pipe w).2.anonymous
  tcpProto : (exec tcp w).1 ≠ .error .nullProto
  pipeProto : (exec pipe w).1 ≠ .error .nullProto

/-- with an object, the pipe callback calls the empty pointer -/
theorem onEvtAcceptPipe_some (seed : ℕ) (peer : Peer) (initRes acceptRes : ℤ) :
    (exec (onEvtAcceptPipe e rec 0 (some seed) peer initRes acceptRes) w).1 = .error .nullProto := rfl

/-- **Accepting on a unix socket equals accepting on TCP** exactly where the listening socket reports an error or
`create_proto_fn_` gives no object. -/
theorem accept_same_iff (e : GwEnv) (w : World) (status : ℤ) (created : Option ℕ) (tcpPeer pipePeer : Peer)
    (initRes acceptRes : ℤ) :
    SameAccept (onEvtAcceptTcp e (reentry e e.depth) status created tcpPeer initRes acceptRes)
        (onEvtAcceptPipe e (reentry e e.depth) status created pipePeer initRes acceptRes) w ↔
      status ≠ 0 ∨ created = none := by
  constructor
  · intro h
    by_contra hboth
    rw [not_or, not_not] at hboth
    obtain ⟨rfl, hsome⟩ := hboth
    obtain ⟨seed, rfl⟩ := Option.ne_none_iff_exists'.1 hsome
    exact h.pipeProto (onEvtAcceptPipe_some seed pipePeer initRes acceptRes)
  · rintro (hstatus | rfl)
    · unfold onEvtAcceptTcp onEvtAcceptPipe
      rw [if_pos hstatus, if_pos hstatus]
      exact ⟨rfl, rfl, (nomatch ·), (nomatch ·)⟩
    · unfold onEvtAcceptTcp onEvtAcceptPipe
      split_ifs
      · exact ⟨rfl, rfl, (nomatch ·), (nomatch ·)⟩
      · exact ⟨rfl, rfl, (nomatch ·), (nomatch ·)⟩

/-- the TCP callback accepts the connection that stops the other one -/
theorem accept_pipe_faults :
    (exec (onEvtAcceptTcp (scriptEnv [] 0) (reentry (scriptEnv [] 0) 8) 0 (some 0) {} 0 0) (World.start openConf 0 none)).1 =
        .ok () ∧
      (exec (onEvtAcceptPipe (scriptEnv [] 0) (reentry (scriptEnv [] 0) 8) 0 (some 0) {} 0 0)
        (World.start openConf 0 none)).1 = .error .nullProto := ⟨rfl, rfl⟩

end AtFrame.Gateway
