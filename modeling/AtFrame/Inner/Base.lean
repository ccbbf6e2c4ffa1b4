/-
What every part of the inner protocol shares: bytes, the error codes and close reasons of `proto_base.h`, the compile-time
sizes, and the headspace that a proto object leaves in front of every buffer it hands to `write_fn`.

- `setWriteHeaderOffset_eq`: the offset is the requested size rounded up to the next multiple of 8;
- `setWriteHeaderOffset_le`: a request of at most 2^20 never gives more than 2^20.
-/
import Mathlib.Tactic

namespace AtFrame

abbrev Bytes := List UInt8

/-- `flatbuffers::ReadScalar<uint32_t>`: the first four bytes, little endian -/
def le32 (b : Bytes) : ℕ :=
  match b with
  | b0 :: b1 :: b2 :: b3 :: _ => b0.toNat + 256 * b1.toNat + 65536 * b2.toNat + 16777216 * b3.toNat
  | _ => 0

/-- `flatbuffers::WriteScalar<uint32_t>` -/
def toLe32 (n : ℕ) : Bytes :=
  [UInt8.ofNat n, UInt8.ofNat (n / 256), UInt8.ofNat (n / 65536), UInt8.ofNat (n / 16777216)]

@[simp] theorem toLe32_length (n : ℕ) : (toLe32 n).length = 4 := rfl

theorem le32_toLe32 (n : ℕ) (hn : n < 2 ^ 32) (r : Bytes) : le32 (toLe32 n ++ r) = n := by
  simp only [toLe32, List.cons_append, le32, UInt8.toNat_ofNat']
  omega

/-- a longer stream starts with the same four bytes -/
theorem le32_append {b : Bytes} (h : 4 ≤ b.length) (r : Bytes) : le32 (b ++ r) = le32 b := by
  match b, h with
  | _ :: _ :: _ :: _ :: _, _ => rfl

/-- `sizeof(read_head_.buffer)`, `ATFRAME_GATEWAY_MACRO_DATA_SMALL_SIZE` -/
def smallSize : ℕ := 3072

/-- `ATBUS_MACRO_MSG_LIMIT` -/
def msgLimit : ℕ := 262144

/-- 32 bits of hash and 32 bits of length -/
def msgHeaderLen : ℕ := 8

/-! ## `error_code_t` -/

def EN_ECT_SUCCESS : ℤ := 0
def EN_ECT_HANDSHAKE : ℤ := -1002
def EN_ECT_REFUSE_RECONNECT : ℤ := -1005
def EN_ECT_MISS_CALLBACKS : ℤ := -1006
def EN_ECT_INVALID_ROUTER : ℤ := -1007
def EN_ECT_NETWORK : ℤ := -1009
def EN_ECT_CLOSING : ℤ := -1011
def EN_ECT_LOST_MANAGER : ℤ := -1012
def EN_ECT_ALREADY_HAS_FD : ℤ := -1015
def EN_ECT_SESSION_NOT_FOUND : ℤ := -1016
def EN_ECT_SESSION_ALREADY_EXIST : ℤ := -1017
def EN_ECT_CRYPT_NOT_SUPPORTED : ℤ := -1019
def EN_ECT_PARAM : ℤ := -1020
def EN_ECT_BAD_DATA : ℤ := -1021
def EN_ECT_INVALID_SIZE : ℤ := -1022
def EN_ECT_CRYPT_ALREADY_INITED : ℤ := -1101
def EN_ECT_CRYPT_VERIFY : ℤ := -1102
def EN_ECT_CRYPT_OPERATION : ℤ := -1103

/-! ## `close_reason_t` -/

def EN_CRT_TRAFIC_EXTENDED : ℤ := 0x0002
def EN_CRT_INVALID_DATA : ℤ := 0x0003
def EN_CRT_RESET : ℤ := 0x0004
def EN_CRT_RECONNECT_BOUND : ℤ := 0x10000
def EN_CRT_FIRST_IDLE : ℤ := 0x10001
def EN_CRT_SERVER_CLOSED : ℤ := 0x10002
def EN_CRT_SERVER_BUSY : ℤ := 0x10003
def EN_CRT_KICKOFF : ℤ := 0x10004
def EN_CRT_HANDSHAKE : ℤ := 0x10005
def EN_CRT_LOGOUT : ℤ := 0x10006

/-! ## `proto_base::set_write_header_offset` -/

/-- `sizeof(size_t)` -/
def sizeofSizeT : BitVec 64 := 8

/-- the new `write_header_offset_`: `sz` padded to `sizeof(size_t)`, in 64-bit arithmetic -/
def setWriteHeaderOffset (sz : BitVec 64) : BitVec 64 :=
  if 0 = sz then sz else (sz + sizeofSizeT - 1) &&& ~~~(sizeofSizeT - 1)

theorem and_not_seven (x : BitVec 64) : (x &&& ~~~(7#64)).toNat = x.toNat / 8 * 8 := by
  have h : x &&& ~~~(7#64) = (x >>> 3) <<< 3 := by
    ext i hi
    simp only [BitVec.getElem_and, BitVec.getElem_not, BitVec.getElem_shiftLeft]
    interval_cases i <;> simp
  rw [h, BitVec.toNat_shiftLeft, BitVec.toNat_ushiftRight, Nat.shiftRight_eq_div_pow, Nat.shiftLeft_eq]
  have := x.isLt
  omega

theorem setWriteHeaderOffset_eq (sz : BitVec 64) (h : sz.toNat ≤ 2 ^ 20) :
    (setWriteHeaderOffset sz).toNat = (sz.toNat + 7) / 8 * 8 := by
  unfold setWriteHeaderOffset
  split_ifs with h0
  · rw [← h0]; rfl
  · have e1 : sizeofSizeT - 1 = 7#64 := by decide
    have e2 : sz + sizeofSizeT - 1 = sz + 7#64 := by unfold sizeofSizeT; bv_omega
    rw [e1, e2, and_not_seven]
    have : (sz + 7#64).toNat = sz.toNat + 7 := by bv_omega
    rw [this]

theorem setWriteHeaderOffset_le (sz : BitVec 64) (h : sz.toNat ≤ 2 ^ 20) :
    (setWriteHeaderOffset sz).toNat ≤ 2 ^ 20 := by
  rw [setWriteHeaderOffset_eq sz h]; omega

end AtFrame
