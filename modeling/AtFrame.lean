import AtFrame.Inner.Proto
import AtFrame.Etcd.Cluster
import AtFrame.Etcd.PrefixDelete
import AtFrame.Etcd.Registration
import AtFrame.Gateway.Closes
import AtFrame.Gateway.Events
import AtFrame.Gateway.Frames
import AtFrame.Gateway.Walks
import AtFrame.Inner.AbsentFields
import AtFrame.Inner.Client
import AtFrame.Inner.Closing
import AtFrame.Inner.PostLength
import AtFrame.Inner.SendQueue
import AtFrame.Inner.SharedConf
import AtFrame.Etcd.Delivery
import AtFrame.Etcd.Idle
import AtFrame.Etcd.Network
import AtFrame.Etcd.NodeEvents
import AtFrame.Etcd.Readded
import AtFrame.Gateway.Capacity
import AtFrame.Gateway.Distinct
import AtFrame.Gateway.Heard
import AtFrame.Gateway.Ledger
import AtFrame.Ids.TimestampId
import AtFrame.Inner.KeyUpdate
import AtFrame.Etcd.WatchStream
import AtFrame.Gateway.Accept
import AtFrame.Gateway.Limits
import AtFrame.Gateway.Shutdown
import AtFrame.Gateway.Timers
import AtFrame.Proxy.Schedule
import AtFrame.Proxy.Table
import AtFrame.Etcd.BadHost
import AtFrame.Etcd.Publication
import AtFrame.Proxy.Discovery
import AtFrame.Proxy.Registered
import AtFrame.Gateway.Started
import AtFrame.Gateway.Keyed
import AtFrame.Gateway.Iterators
import AtFrame.Gateway.Lasting
import AtFrame.Lib.Flow
import AtFrame.Inner.Peers
import AtFrame.Inner.Keys
import AtFrame.Inner.Exchange
import AtFrame.Inner.Phases
import AtFrame.Inner.Handlers
import AtFrame.Inner.Reconnect
import AtFrame.Inner.Agreement
import AtFrame.Inner.Connections
