/-!
The parts of a forward request, in the order in which they come.

* `Phase`: the part that the next byte belongs to;
* `Phase.next`: the part after it;
* `Phase.remaining`: how many parts there are up to the end.
-/

namespace Ajp13.Decoder

/-- The part of a packet that the next byte belongs to. -/
inductive Phase
  | magic
  | dataSize
  | prefixCode
  | method
  | protocol
  | requestUri
  | remoteAddress
  | remoteHost
  | serverName
  | serverPort
  | ssl
  | headerCount
  | headers
  | attributes
  /-- The packet is complete. -/
  | done
deriving DecidableEq, Repr

/-- The part that follows in a forward request. -/
def Phase.next : Phase → Phase
  | magic => dataSize
  | dataSize => prefixCode
  | prefixCode => method
  | method => protocol
  | protocol => requestUri
  | requestUri => remoteAddress
  | remoteAddress => remoteHost
  | remoteHost => serverName
  | serverName => serverPort
  | serverPort => ssl
  | ssl => headerCount
  | headerCount => headers
  | headers => attributes
  | attributes => done
  | done => done

/-- The number of parts from the given one on. -/
def Phase.remaining : Phase → Nat
  | magic => 14
  | dataSize => 13
  | prefixCode => 12
  | method => 11
  | protocol => 10
  | requestUri => 9
  | remoteAddress => 8
  | remoteHost => 7
  | serverName => 6
  | serverPort => 5
  | ssl => 4
  | headerCount => 3
  | headers => 2
  | attributes => 1
  | done => 0

theorem Phase.remaining_next_lt {p : Phase} (h : p ≠ done) :
    p.next.remaining < p.remaining := by
  cases p <;> first | exact absurd rfl h | decide

end Ajp13.Decoder
