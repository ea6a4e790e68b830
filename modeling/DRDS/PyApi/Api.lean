import DRDS.Env
import DRDS.PyApi.Utils

/-! The client API of `pyapi/api.py`: the packet each call sends, and the loop that waits for a
datagram on the one socket of the client. -/
namespace DRDS.PyApi
open Go

/-- The ids a client puts into its packets, and where its socket is bound. Its sequence number
stays 0. -/
structure API where
  idClient : ℕ
  idServer : ℕ
  addr : Addr

/-- The calls that read the socket. A range request gives `(synt, timeDiff)` as its time, a
request for one record has the difference 0. -/
inductive Call where
  | request (id synt timeDiff priority : ℕ)
  | publishRegister (id synt priority : ℕ)
  | subscribeRegister (id synt priority : ℕ)
  | subscribe
  deriving DecidableEq

def API.servicePkt (api : API) (physicalTime service id synt timeDiff priority : ℕ) : Packet :=
  .init api.idClient api.idServer 1 priority 0 0 physicalTime synt 0 0 service 0 0 0 1
    [.init id timeDiff 0 0 0 []]

def API.pkt? (api : API) (physicalTime : ℕ) : Call → Option Packet
  | .request id synt timeDiff priority =>
    some (api.servicePkt physicalTime 1 id synt timeDiff priority)
  | .publishRegister id synt priority => some (api.servicePkt physicalTime 2 id synt 0 priority)
  | .subscribeRegister id synt priority => some (api.servicePkt physicalTime 3 id synt 0 priority)
  | .subscribe => none

inductive Round where
  | returns (pkt : Option Packet)
  | continues (count : ℕ)

/-- A round of the loop, with the datagram that is first in the socket. An empty socket and a
datagram that does not decode are both exceptions, and a datagram read is gone. -/
def round (count : ℕ) (message : Option (List UInt8)) : Round :=
  if 1000 < count then .returns none
  else
    match message.bind Packet.buf2Pkt? with
    | some pkt => .returns (some pkt)
    | none => .continues (count + 1)

theorem message_of_round {count : ℕ} {message : Option (List UInt8)} {pkt : Packet}
    (h : round count message = .returns (some pkt)) :
    ∃ buf, message = some buf ∧ Packet.buf2Pkt? buf = some pkt := by
  unfold round at h
  split_ifs at h
  · cases h
  · split at h
    · rename_i pkt' hdecode
      cases h
      exact Option.bind_eq_some_iff.mp hdecode
    · cases h

end DRDS.PyApi
