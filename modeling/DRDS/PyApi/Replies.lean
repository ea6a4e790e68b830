import DRDS.PyApi.Codec
import DRDS.PyApi.Exchange
import DRDS.Server.Publish

/-! What the calls of a client return. The waiting loop takes the first datagram that decodes. -/
namespace DRDS.PyApi
open Go
open Server (fromServiceBuf? listenBuf handlePkt wire serviceHeader headerBuf subBuf subHeader
  IsDataOf IsResponse NoHistory Sends Allowed)

/-! ### The packets of the server, as the client reads them -/

theorem Header.fromBuffer?_wire {v : Server.ServicePacket (List UInt8)} {h : Header}
    (hv : Header.fromBuffer? (wire v) = some h) :
    h.service = v.service ∧ h.subframeNum = v.subframeNum := by
  have hservice : field (wire v) 16 1 = v.service.toNat := by
    have hbytes : wire v = headerBuf v.toPacket ++ (leBytes 1 v.service.toNat ++
        ([v.flag, v.option1, v.option2] ++ leBytes 2 v.subframeNum.toNat ++
          v.subpackets.flatMap subBuf)) := by
      rw [leBytes_one]
      simp [wire, serviceHeader, Server.bufExt]
    rw [hbytes, field_append (Server.length_headerBuf _)]
    exact Nat.mod_eq_of_lt v.service.toNat_lt
  have hnum : field (wire v) 20 2 = v.subframeNum.toNat := by
    have hlen : (Server.bufExt v).length = 20 := by simp [Server.bufExt]
    rw [wire, serviceHeader, List.append_assoc, field_append hlen]
    exact Nat.mod_eq_of_lt v.subframeNum.toNat_lt
  unfold Header.fromBuffer? at hv
  split_ifs at hv
  obtain rfl := Option.some.inj hv
  dsimp only
  rw [hservice, hnum]
  simp

theorem SubPacket.buf2Pkt?_subBuf {f : Server.SubPacket (List UInt8)} {q : SubPacket} {n : ℕ}
    (hq : SubPacket.buf2Pkt? (subBuf f) = some (q, n)) : q.header.dataID = f.dataID := by
  have hid : field (subBuf f) 0 2 = f.dataID.toNat := by
    rw [subBuf, subHeader, List.append_assoc, List.append_assoc, List.append_assoc]
    exact (field_append (a := []) rfl _).trans (Nat.mod_eq_of_lt f.dataID.toNat_lt)
  simp only [SubPacket.buf2Pkt?, Option.bind_eq_bind, Option.bind_eq_some_iff] at hq
  obtain ⟨h, hh, hrest⟩ := hq
  split_ifs at hrest
  cases hrest
  unfold SubHeader.fromBuffer? at hh
  split_ifs at hh
  obtain rfl := Option.some.inj hh
  dsimp only
  rw [hid]
  simp

theorem drop_wire_of_single {v : Server.ServicePacket (List UInt8)}
    {f : Server.SubPacket (List UInt8)} (hsub : v.subpackets = [f]) :
    (wire v).drop 22 = subBuf f := by
  rw [wire, List.drop_left' (Server.length_serviceHeader v), hsub]
  simp

theorem Packet.subpackets_of_isDataOf {dst : UInt8} {id : UInt16} {buf : List UInt8} {pkt : Packet}
    (hbuf : IsDataOf dst id buf) (hpkt : Packet.buf2Pkt? buf = some pkt) :
    ∃ f, pkt.subpackets = [f] ∧ f.header.dataID = id := by
  obtain ⟨v, f, rfl, -, -, hnum, hsub, hid⟩ := hbuf
  simp only [Packet.buf2Pkt?, Option.bind_eq_bind, Option.bind_eq_some_iff] at hpkt
  obtain ⟨header, hheader, ⟨index, subpackets⟩, hloop, hsome⟩ := hpkt
  obtain rfl := Option.some.inj hsome
  have hone : header.subframeNum = 1 := (Header.fromBuffer?_wire hheader).2.trans hnum
  have hrange : List.range (1 : UInt16).toNat = [0] := by decide
  rw [hone, hrange, List.foldlM_cons, drop_wire_of_single hsub] at hloop
  rcases hq : SubPacket.buf2Pkt? (subBuf f) with _ | ⟨q, n⟩
  · rw [hq] at hloop
    cases hloop
  · rw [hq] at hloop
    cases hloop
    exact ⟨q, rfl, (SubPacket.buf2Pkt?_subBuf hq).trans hid⟩

theorem Packet.service_of_isResponse {buf : List UInt8} {pkt : Packet} (hbuf : IsResponse buf)
    (hpkt : Packet.buf2Pkt? buf = some pkt) : pkt.header.service = Utils.serResponse := by
  obtain ⟨v, rfl, hservice, -⟩ := hbuf
  simp only [Packet.buf2Pkt?, Option.bind_eq_bind, Option.bind_eq_some_iff] at hpkt
  obtain ⟨header, hheader, ⟨index, subpackets⟩, hloop, hsome⟩ := hpkt
  obtain rfl := Option.some.inj hsome
  exact (Header.fromBuffer?_wire hheader).1.trans hservice

/-! ### The packets of the client, as the server reads them -/

/-- What the Go decoder makes of the packet of a call: its two bytes of nibbles come out in each
other's place. -/
def API.wirePkt (api : API) (physicalTime service id synt timeDiff priority : ℕ) :
    Server.ServicePacket (List UInt8) where
  src := .ofNat api.idClient
  dst := .ofNat api.idServer
  messageType := 0
  priority := 0
  version := .ofNat (1 <<< (4 + priority)) / 16
  reserved := .ofNat (1 <<< (4 + priority)) % 16
  physicalTime := .ofNat physicalTime
  simulinkTime := .ofNat synt
  sequence := 0
  length := 0
  payload := []
  service := .ofNat service
  flag := 0
  option1 := 0
  option2 := 0
  subframeNum := 1
  subpackets := [⟨.ofNat id, .ofNat timeDiff, 0, 0, 0, []⟩]

section Sent
variable (api : API) (physicalTime service id synt timeDiff priority : ℕ)

theorem API.wirePkt_valid16 :
    (api.wirePkt physicalTime service id synt timeDiff priority).Valid16 := by
  have hzero : (0 : UInt8).toNat < 16 := by decide
  refine ⟨⟨hzero, hzero, ?_, ?_⟩, rfl, ?_⟩
  · have hlt := (UInt8.ofNat (1 <<< (4 + priority))).toNat_lt
    change (UInt8.ofNat (1 <<< (4 + priority)) / 16).toNat < 16
    rw [UInt8.toNat_div]
    change _ / 16 < 16
    omega
  · change (UInt8.ofNat (1 <<< (4 + priority)) % 16).toNat < 16
    rw [UInt8.toNat_mod]
    exact Nat.mod_lt _ (by decide)
  · intro f hf
    rw [List.mem_singleton.mp hf]
    rfl

theorem API.pkt2Buf?_servicePkt :
    (api.servicePkt physicalTime service id synt timeDiff priority).pkt2Buf? =
      some (wire (api.wirePkt physicalTime service id synt timeDiff priority)) := by
  have hnibbles : leBytes 2 (Server.nibbles (api.wirePkt physicalTime service id synt timeDiff
      priority).toPacket).toNat = [.ofNat (1 <<< (4 + priority)), 0] := by
    have hlt := (UInt8.ofNat (1 <<< (4 + priority))).toNat_lt
    rw [Server.toNat_nibbles (API.wirePkt_valid16 ..).nibbles]
    change leBytes 2 (4096 * 0 + 256 * 0 + 16 * (UInt8.ofNat (1 <<< (4 + priority)) / 16).toNat +
      (UInt8.ofNat (1 <<< (4 + priority)) % 16).toNat) = _
    rw [UInt8.toNat_div, UInt8.toNat_mod]
    change leBytes 2 (4096 * 0 + 256 * 0 + 16 * ((UInt8.ofNat (1 <<< (4 + priority))).toNat / 16) +
      (UInt8.ofNat (1 <<< (4 + priority))).toNat % 16) = _
    generalize UInt8.ofNat (1 <<< (4 + priority)) = b at hlt ⊢
    have hword : 4096 * 0 + 256 * 0 + 16 * (b.toNat / 16) + b.toNat % 16 = b.toNat := by omega
    have hhigh : b.toNat / 256 = 0 := by omega
    rw [hword, leBytes, leBytes, leBytes, hhigh]
    simp
  rw [wire, serviceHeader, Server.bufExt, headerBuf, hnibbles]
  simp [servicePkt, Packet.init, Packet.pkt2Buf?, SubPacket.pkt2Buf?, SubPacket.init, Header.bytes,
    SubHeader.bytes, wirePkt, subBuf, subHeader]

theorem API.decode_servicePkt {buf : List UInt8} {p : Server.ServicePacket (Slice UInt8)}
    (hbuf : (api.servicePkt physicalTime service id synt timeDiff priority).pkt2Buf? = some buf)
    (hp : fromServiceBuf? (listenBuf buf) = some p) :
    p.service = .ofNat service ∧ ∃ f, p.subpackets = [f] ∧ f.dataID = .ofNat id := by
  rw [pkt2Buf?_servicePkt] at hbuf
  obtain rfl := Option.some.inj hbuf
  have hvalid := api.wirePkt_valid16 physicalTime service id synt timeDiff priority
  have hlen : (wire (api.wirePkt physicalTime service id synt timeDiff priority)).length ≤ 4500 := by
    simp [wire, wirePkt]
  obtain ⟨p', hp', hvisible⟩ := Server.listenBuf_decodes hvalid hlen
  obtain rfl : p' = p := Option.some.inj (hp'.symm.trans hp)
  obtain ⟨f, hf, hview⟩ :=
    List.map_eq_singleton_iff.mp (congrArg Server.ServicePacket.subpackets hvisible)
  exact ⟨congrArg Server.ServicePacket.service hvisible, f, hf,
    congrArg Server.SubPacket.dataID hview⟩

end Sent

/-! ### Calls made one after the other -/

def Call.Asks : Call → Prop
  | .subscribe => False
  | _ => True

/-- The returned packet is the server's answer to the packet of this call: data of the id that was
asked for, or the acknowledgement. -/
def Return.Matched (r : Return) : Prop :=
  match r.call, r.result with
  | .request id _ _ _, some (origin, pkt) => origin = some r.number ∧
    ∃ f, pkt.subpackets = [f] ∧ f.header.dataID.toNat = id
  | .publishRegister .., some (origin, pkt) | .subscribeRegister .., some (origin, pkt) =>
    origin = some r.number ∧ pkt.header.service = Utils.serResponse
  | _, _ => True

def Link.Asking (L : Link) : Prop := ∃ w, L.waiting = some w ∧ w.call.Asks

/-- Nothing is on its way to or from the client, or left in its socket. -/
def Link.Quiet (L : Link) : Prop := L.requests = [] ∧ L.replies = [] ∧ L.socket = []

/-- A call with a packet is made when all is quiet, and for an id of 16 bits; while it waits a
subscription is answered without history, and the server sends nothing else to the client. -/
def Link.Undisturbed (e : Env) (api : API) : Action → Link → Prop
  | .call c _, L => c.Asks → L.Quiet ∧ ∀ id synt timeDiff priority,
    c = .request id synt timeDiff priority → id < 65536
  | .serve i, L => L.Asking → ∀ number buf p, L.requests[i]? = some (number, buf) →
    fromServiceBuf? (listenBuf buf) = some p → p.service = Utils.serSubscribe →
    ∀ f ∈ p.subpackets, NoHistory e L.server f.dataID p.src p.simulinkTime
  | .handle p, L => L.Asking → p.service = Utils.serRequest ∨ p.service = Utils.serSubscribe →
    L.server.allClientAddr p.src ≠ some api.addr
  | .run i, L => L.Asking → ∀ r dst, L.routines[i]? = some r → r.client? = some dst →
    L.server.allClientAddr dst ≠ some api.addr
  | _, _ => True

def Link.RunUndisturbed (g : Slice.Growth) (e : Env) (api : API) : List Action → Link → Prop
  | [], _ => True
  | a :: as, L => L.Undisturbed e api a ∧
    ∀ T, L.step? g e api a = some T → T.RunUndisturbed g e api as

/-- What the server may answer a call with. -/
def Call.Answer : Call → List UInt8 → Prop
  | .request id _ _ _, buf => id < 65536 ∧ ∃ dst, IsDataOf dst (.ofNat id) buf
  | .publishRegister .., buf => IsResponse buf
  | .subscribeRegister .., buf => IsResponse buf
  | .subscribe, _ => True

def Waiting.Own (w : Waiting) (message : Incoming) : Prop :=
  message.1 = some w.number ∧ w.call.Answer message.2

/-- While a call with a packet waits, all datagrams are of this call. -/
structure Link.Inv (api : API) (L : Link) : Prop where
  requests : ∀ w, L.waiting = some w → w.call.Asks → ∀ x ∈ L.requests, x.1 = w.number ∧
    ∃ physicalTime, (api.pkt? physicalTime w.call).bind Packet.pkt2Buf? = some x.2
  range : ∀ w, L.waiting = some w → ∀ id synt timeDiff priority,
    w.call = .request id synt timeDiff priority → id < 65536
  own : ∀ w, L.waiting = some w → w.call.Asks → ∀ x ∈ L.replies ++ L.socket, w.Own x
  matched : ∀ r ∈ L.returned, r.Matched

variable {g : Slice.Growth} {e : Env} {api : API}

theorem Link.init_inv (s : Server) : (Link.init s).Inv api where
  requests _ h := by cases h
  range _ h := by cases h
  own _ h := by cases h
  matched _ h := by cases h

theorem Waiting.Own.matched {w : Waiting} {message : Incoming} {pkt : Packet} (h : w.Own message)
    (hpkt : Packet.buf2Pkt? message.2 = some pkt) :
    Return.Matched ⟨w.number, w.call, some (message.1, pkt)⟩ := by
  obtain ⟨horigin, hanswer⟩ := h
  rcases w with ⟨number, call, count⟩
  cases call with
  | request id synt timeDiff priority =>
    obtain ⟨hid, dst, hdata⟩ := hanswer
    obtain ⟨f, hf, hfid⟩ := Packet.subpackets_of_isDataOf hdata hpkt
    refine ⟨horigin, f, hf, ?_⟩
    rw [hfid]
    exact UInt16.toNat_ofNat_of_lt' hid
  | publishRegister id synt priority =>
    exact ⟨horigin, Packet.service_of_isResponse hanswer hpkt⟩
  | subscribeRegister id synt priority =>
    exact ⟨horigin, Packet.service_of_isResponse hanswer hpkt⟩
  | subscribe => exact trivial

/-- Steps that leave the call waiting keep the invariant when they bring only datagrams of its
own. -/
theorem Link.Inv.of_subset {L T : Link} (h : L.Inv api) (hwaiting : T.waiting = L.waiting)
    (hreturned : T.returned = L.returned) (hrequests : T.requests ⊆ L.requests)
    (hreplies : ∀ x ∈ T.replies ++ T.socket, x ∈ L.replies ++ L.socket ∨
      ∀ w, L.waiting = some w → w.call.Asks → w.Own x) : T.Inv api where
  requests w hw hasks x hx := by
    rw [hwaiting] at hw
    exact h.requests w hw hasks x (hrequests hx)
  range w hw := by
    rw [hwaiting] at hw
    exact h.range w hw
  own w hw hasks x hx := by
    rw [hwaiting] at hw
    rcases hreplies x hx with hx | hx
    · exact h.own w hw hasks x hx
    · exact hx w hw hasks
  matched := by
    rw [hreturned]
    exact h.matched

theorem API.emitted_of_sends {kind : List UInt8 → Prop} {s t : Server}
    (h : Sends (fun x => x.1 = api.addr → kind x.2) s t) : ∀ buf ∈ api.emitted s t, kind buf := by
  obtain ⟨ds, hds, hkind⟩ := h.sent
  intro buf hbuf
  rw [emitted, hds, List.drop_left] at hbuf
  obtain ⟨x, hx, rfl⟩ := List.mem_map.mp hbuf
  obtain ⟨hmem, haddr⟩ := List.mem_filter.mp hx
  exact hkind x hmem (of_decide_eq_true haddr)

theorem API.emitted_of_silent {s t : Server} (h : Sends (fun x => x.1 ≠ api.addr) s t) :
    api.emitted s t = [] :=
  List.eq_nil_iff_forall_not_mem.mpr (emitted_of_sends h)

/-- The server answers the packet of a call, and nothing else is sent with the answer. -/
theorem Call.answered {c : Call} {physicalTime : ℕ} {buf : List UInt8}
    {p : Server.ServicePacket (Slice UInt8)} {s : Server} (hc : c.Asks)
    (hrange : ∀ id synt timeDiff priority, c = .request id synt timeDiff priority → id < 65536)
    (hbuf : (api.pkt? physicalTime c).bind Packet.pkt2Buf? = some buf)
    (hp : fromServiceBuf? (listenBuf buf) = some p)
    (hhistory : p.service = Utils.serSubscribe →
      ∀ f ∈ p.subpackets, NoHistory e s f.dataID p.src p.simulinkTime) :
    Sends (fun x => x.1 = api.addr → c.Answer x.2) s (handlePkt g e p s).server := by
  cases c with
  | request id synt timeDiff priority =>
    obtain ⟨hservice, f, hf, hid⟩ := api.decode_servicePkt _ _ _ _ _ _ hbuf hp
    have hlt := hrange _ _ _ _ rfl
    apply Server.handlePkt_request_sends hservice
    intro f' hf' addr buf' _ hdata _
    rw [hf] at hf'
    rw [List.mem_singleton.mp hf', hid] at hdata
    exact ⟨hlt, p.src, hdata⟩
  | publishRegister id synt priority =>
    obtain ⟨hservice, -⟩ := api.decode_servicePkt _ _ _ _ _ _ hbuf hp
    rw [Server.handlePkt_publish_panics g e s hp hservice]
    exact .refl s
  | subscribeRegister id synt priority =>
    obtain ⟨hservice, f, hf, hid⟩ := api.decode_servicePkt _ _ _ _ _ _ hbuf hp
    apply Server.handlePkt_subscribe_sends hservice hf
    · exact fun addr buf' _ hack _ => hack
    · exact hhistory hservice f (by simp [hf])
  | subscribe => exact absurd hc id

/-! ### Steps and runs -/

theorem Link.Inv.turn {L : Link} (h : L.Inv api) {origin : Option ℕ} {outcome : Outcome}
    {spawned : List Server.Routine} {t : Server}
    (hown : ∀ w, L.waiting = some w → w.call.Asks → ∀ buf ∈ api.emitted L.server t,
      w.Own (origin, buf)) : (L.turn api origin outcome spawned t).Inv api := by
  refine h.of_subset (T := L.turn api origin outcome spawned t) rfl rfl (List.Subset.refl _) ?_
  intro x hx
  change x ∈ (L.replies ++ (api.emitted L.server t).map fun buf => (origin, buf)) ++ L.socket at hx
  rw [List.mem_append, List.mem_append, List.mem_map] at hx
  rcases hx with (hx | ⟨buf, hbuf, rfl⟩) | hx
  · exact .inl (List.mem_append_left _ hx)
  · exact .inr fun w hw hasks => hown w hw hasks buf hbuf
  · exact .inl (List.mem_append_right _ hx)

/-- A turn of the server that sends nothing to a client whose call waits. -/
theorem Link.Inv.turn_of_silent {L : Link} (h : L.Inv api) {outcome : Outcome}
    {spawned : List Server.Routine} {t : Server}
    (hsilent : L.Asking → Sends (fun x => x.1 ≠ api.addr) L.server t) :
    (L.turn api none outcome spawned t).Inv api := by
  apply h.turn
  intro w hw hasks buf hbuf
  rw [API.emitted_of_silent (hsilent ⟨w, hw, hasks⟩)] at hbuf
  cases hbuf

theorem Link.Inv.call {L T : Link} {c : Call} {physicalTime : ℕ} (h : L.Inv api)
    (hgood : L.Undisturbed e api (.call c physicalTime))
    (hstep : L.step? g e api (.call c physicalTime) = some T) : T.Inv api := by
  cases hw : L.waiting with
  | some w =>
    simp only [Link.step?, hw] at hstep
    cases hstep
  | none =>
    simp only [Link.step?, hw] at hstep
    obtain rfl := Option.some.inj hstep
    constructor
    · intro w hw' hasks x hx
      obtain rfl := Option.some.inj hw'
      obtain ⟨hrequests, -, -⟩ := (hgood hasks).1
      change x ∈ L.requests ++ _ at hx
      rw [hrequests, List.nil_append, List.mem_map] at hx
      obtain ⟨buf, hbuf, rfl⟩ := hx
      exact ⟨rfl, physicalTime, Option.mem_toList.mp hbuf⟩
    · intro w hw' id synt timeDiff priority hc
      obtain rfl := Option.some.inj hw'
      change c = _ at hc
      have hasks : c.Asks := by
        rw [hc]
        exact trivial
      exact (hgood hasks).2 _ _ _ _ hc
    · intro w hw' hasks x hx
      obtain rfl := Option.some.inj hw'
      obtain ⟨-, hreplies, hsocket⟩ := (hgood hasks).1
      change x ∈ L.replies ++ L.socket at hx
      rw [hreplies, hsocket] at hx
      cases hx
    · exact h.matched

theorem Link.Inv.poll {L T : Link} (h : L.Inv api) (hstep : L.step? g e api .poll = some T) :
    T.Inv api := by
  obtain ⟨w, hw, ⟨count, rfl⟩ | rfl | ⟨message, socket, pkt, hsocket, hpkt, rfl⟩⟩ :=
    Link.step?_poll hstep
  · constructor
    · intro w' hw' hasks
      obtain rfl := Option.some.inj hw'
      exact h.requests w hw hasks
    · intro w' hw'
      obtain rfl := Option.some.inj hw'
      exact h.range w hw
    · intro w' hw' hasks x hx
      obtain rfl := Option.some.inj hw'
      rcases List.mem_append.mp hx with hx | hx
      · exact h.own w hw hasks x (List.mem_append_left _ hx)
      · exact h.own w hw hasks x (List.mem_append_right _ (List.mem_of_mem_tail hx))
    · exact h.matched
  · refine ⟨fun _ hw' => (by cases hw'), fun _ hw' => (by cases hw'), fun _ hw' => (by cases hw'), ?_⟩
    intro r hr
    rcases List.mem_append.mp hr with hr | hr
    · exact h.matched r hr
    · rw [List.mem_singleton.mp hr]
      unfold Return.Matched
      split <;> first | exact trivial | contradiction
  · refine ⟨fun _ hw' => (by cases hw'), fun _ hw' => (by cases hw'), fun _ hw' => (by cases hw'), ?_⟩
    intro r hr
    rcases List.mem_append.mp hr with hr | hr
    · exact h.matched r hr
    · rw [List.mem_singleton.mp hr]
      by_cases hasks : w.call.Asks
      · have hmem : message ∈ L.replies ++ L.socket := by simp [hsocket]
        exact (h.own w hw hasks message hmem).matched hpkt
      · cases hc : w.call with
        | subscribe => exact trivial
        | request => exact absurd (by rw [hc]; exact trivial) hasks
        | publishRegister => exact absurd (by rw [hc]; exact trivial) hasks
        | subscribeRegister => exact absurd (by rw [hc]; exact trivial) hasks

theorem Link.Inv.serve {L T : Link} {i : ℕ} (h : L.Inv api)
    (hgood : L.Undisturbed e api (.serve i)) (hstep : L.step? g e api (.serve i) = some T) :
    T.Inv api := by
  simp only [Link.step?] at hstep
  split_ifs at hstep
  obtain ⟨⟨number, buf⟩, hrequest, hT⟩ := Option.map_eq_some_iff.mp hstep
  have herased : ({ L with requests := L.requests.eraseIdx i } : Link).Inv api :=
    h.of_subset (T := { L with requests := L.requests.eraseIdx i }) rfl rfl
      List.eraseIdx_subset fun x hx => .inl hx
  dsimp only at hT
  cases hp : fromServiceBuf? (listenBuf buf) with
  | none =>
    rw [hp] at hT
    subst hT
    exact herased.of_subset rfl rfl (List.Subset.refl _) fun x hx => .inl hx
  | some p =>
    rw [hp] at hT
    subst hT
    apply herased.turn
    intro w hw hasks buf' hbuf'
    obtain ⟨hnumber, physicalTime, hbuf⟩ := h.requests w hw hasks _ (List.mem_of_getElem? hrequest)
    obtain rfl : number = w.number := hnumber
    have hanswered := Call.answered (g := g) hasks (h.range w hw) hbuf hp
      (hgood ⟨w, hw, hasks⟩ w.number buf p hrequest hp)
    exact ⟨rfl, API.emitted_of_sends hanswered buf' hbuf'⟩

theorem Link.step?_inv {L T : Link} {a : Action} (h : L.Inv api) (hgood : L.Undisturbed e api a)
    (hstep : L.step? g e api a = some T) : T.Inv api := by
  cases a with
  | call c physicalTime => exact h.call hgood hstep
  | poll => exact h.poll hstep
  | deliver i =>
    obtain ⟨message, hmessage, rfl⟩ := Option.map_eq_some_iff.mp hstep
    refine h.of_subset rfl rfl (List.Subset.refl _) fun x hx => .inl ?_
    rw [List.mem_append, List.mem_append, List.mem_singleton] at hx
    rcases hx with hx | hx | rfl
    · exact List.mem_append_left _ (List.eraseIdx_subset hx)
    · exact List.mem_append_right _ hx
    · exact List.mem_append_left _ (List.mem_of_getElem? hmessage)
  | loseReply i =>
    obtain rfl := Option.some.inj hstep
    refine h.of_subset rfl rfl (List.Subset.refl _) fun x hx => .inl ?_
    rcases List.mem_append.mp hx with hx | hx
    · exact List.mem_append_left _ (List.eraseIdx_subset hx)
    · exact List.mem_append_right _ hx
  | loseRequest i =>
    obtain rfl := Option.some.inj hstep
    exact h.of_subset rfl rfl List.eraseIdx_subset fun x hx => .inl hx
  | serve i => exact h.serve hgood hstep
  | handle p =>
    simp only [Link.step?] at hstep
    split_ifs at hstep
    obtain rfl := Option.some.inj hstep
    apply h.turn_of_silent
    intro hasking
    apply Server.handlePkt_sends
    intro hservice addr buf haddr _ heq
    exact hgood hasking hservice (heq ▸ haddr)
  | run i =>
    simp only [Link.step?] at hstep
    split_ifs at hstep
    obtain ⟨r, hr, rfl⟩ := Option.map_eq_some_iff.mp hstep
    have herased : ({ L with routines := L.routines.eraseIdx i } : Link).Inv api :=
      h.of_subset rfl rfl (List.Subset.refl _) fun x hx => .inl hx
    apply herased.turn_of_silent
    intro hasking
    apply Server.run_sends
    intro dst hdst addr buf haddr _ heq
    exact hgood hasking r dst hr hdst (heq ▸ haddr)
  | besides handler tables =>
    obtain rfl := Option.some.inj hstep
    exact h.of_subset rfl rfl (List.Subset.refl _) fun x hx => .inl hx

theorem Link.run?_inv {as : List Action} {L T : Link} (h : L.Inv api)
    (hgood : L.RunUndisturbed g e api as) (hrun : Link.run? g e api as L = some T) :
    T.Inv api := by
  induction as generalizing L with
  | nil =>
    cases hrun
    exact h
  | cons a as ih =>
    obtain ⟨U, hstep, hrest⟩ := Option.bind_eq_some_iff.mp hrun
    exact ih (Link.step?_inv h hgood.1 hstep) (hgood.2 U hstep) hrest

/-- In a run without disturbances every packet a call returns is the answer to this call. -/
theorem returned_matched (g : Slice.Growth) (e : Env) (api : API) (s : Server)
    (as : List Action) (L : Link) (hrun : Link.run? g e api as (.init s) = some L)
    (hgood : (Link.init s).RunUndisturbed g e api as) : ∀ r ∈ L.returned, r.Matched :=
  (Link.run?_inv (Link.init_inv s) hgood hrun).matched

def client : API := ⟨2, 1, ⟨0x7f000001, 20001⟩⟩

/-- Subsystem 5 sends a record of data id 3 while the client, which has subscribed to it,
subscribes to data id 4. -/
def liveActions : List Action :=
  [.call (.subscribeRegister 3 500 7) 1650000000, .serve 0, .deliver 0, .poll,
    .call (.subscribeRegister 4 500 7) 1650000001,
    .handle { Server.clientPacket Utils.serSend
      [⟨3, 0, 1, 1, 1, .ofList [0, 0, 0, 0, 0, 0, 0xf0, 0x3f]⟩] (.ofList []) with src := 5 },
    .run 1, .deliver 0, .poll]

/-- The second call returns the live data in place of its acknowledgement. -/
theorem liveActions_mismatched : ¬ ∀ (g : Slice.Growth) (e : Env) (api : API) (s : Server)
    (as : List Action) (L : Link), Link.run? g e api as (.init s) = some L →
    ∀ r ∈ L.returned, r.Matched := by
  intro h
  have hrun : (Link.run? .tight .reliable client liveActions (.init .afterInit)).map
      (fun L => L.returned.map fun r => (r.call, r.result.map fun x => x.2.header.service)) =
      some [(.subscribeRegister 3 500 7, some Utils.serResponse),
        (.subscribeRegister 4 500 7, some Utils.serSend)] := by decide +kernel
  obtain ⟨L, hL, hreturned⟩ := Option.map_eq_some_iff.mp hrun
  have hmem : ((.subscribeRegister 4 500 7, some Utils.serSend) : Call × Option UInt8) ∈
      L.returned.map fun r => (r.call, r.result.map fun x => x.2.header.service) := by
    rw [hreturned]
    exact List.mem_cons_of_mem _ List.mem_cons_self
  obtain ⟨⟨number, call, result⟩, hr, heq⟩ := List.mem_map.mp hmem
  obtain ⟨hcall, hresult⟩ := Prod.mk.inj heq
  obtain ⟨⟨origin, pkt⟩, hsome, hservice⟩ := Option.map_eq_some_iff.mp hresult
  have hmatched := h _ _ _ _ _ L hL _ hr
  dsimp only at hcall hsome hservice
  subst hcall hsome
  have hack : pkt.header.service = Utils.serResponse := hmatched.2
  rw [hservice] at hack
  exact absurd hack (by decide)

/-! ### A session -/

theorem Link.RunUndisturbed.append {as bs : List Action} {L : Link}
    (has : L.RunUndisturbed g e api as)
    (hbs : ∀ T, Link.run? g e api as L = some T → T.RunUndisturbed g e api bs) :
    L.RunUndisturbed g e api (as ++ bs) := by
  induction as generalizing L with
  | nil => exact hbs L rfl
  | cons a as ih =>
    refine ⟨has.1, fun U hU => ih (has.2 U hU) fun T hT => hbs T ?_⟩
    rw [run?, hU]
    exact hT

def registerActions : List Action :=
  [.call (.subscribeRegister 3 500 7) 1650000000, .serve 0, .deliver 0, .poll]

def receiveActions : List Action :=
  [.handle { Server.clientPacket Utils.serSend
      [⟨3, 0, 1, 1, 1, .ofList [0, 0, 0, 0, 0, 0, 0xf0, 0x3f]⟩] (.ofList []) with src := 5 },
    .run 1, .deliver 0, .call .subscribe 1650000001, .poll]

def requestActions : List Action :=
  [.call (.request 3 500 0 7) 1650000002, .serve 0, .deliver 0, .poll]

theorem registerActions_undisturbed :
    (Link.init .afterInit).RunUndisturbed g e api registerActions := by
  refine ⟨fun _ => ⟨⟨rfl, rfl, rfl⟩, ?_⟩, fun T hT => ⟨?_, fun _ _ => ⟨trivial, fun _ _ =>
    ⟨trivial, fun _ _ => trivial⟩⟩⟩⟩
  · rintro id synt timeDiff priority hcall
    cases hcall
  · -- nobody is registered yet
    obtain rfl := Option.some.inj hT
    rintro - number buf p - - - f -
    exact .inl List.not_mem_nil

theorem receiveActions_undisturbed {L : Link} (hL : L.waiting = none) :
    L.RunUndisturbed g e api receiveActions := by
  refine ⟨?_, fun T hT => ⟨?_, fun _ _ => ⟨trivial, fun _ _ => ⟨fun hasks => hasks.elim, fun _ _ =>
    ⟨trivial, fun _ _ => trivial⟩⟩⟩⟩⟩
  · rintro ⟨w, hw, -⟩
    cases hL.symm.trans hw
  · rintro ⟨w, hw, -⟩
    simp only [Link.step?] at hT
    split_ifs at hT
    obtain rfl := Option.some.inj hT
    cases hL.symm.trans hw

theorem requestActions_undisturbed {L : Link} (hL : L.Quiet) :
    L.RunUndisturbed g e api requestActions := by
  obtain ⟨hrequests, hreplies, hsocket⟩ := hL
  refine ⟨fun _ => ⟨⟨hrequests, hreplies, hsocket⟩, ?_⟩, fun T hT => ⟨?_, fun _ _ => ⟨trivial, fun _ _ =>
    ⟨trivial, fun _ _ => trivial⟩⟩⟩⟩
  · rintro id synt timeDiff priority hcall
    cases hcall
    decide
  · rintro - number buf p hrequest hp hservice
    have hmem := List.mem_of_getElem? hrequest
    simp only [Link.step?] at hT
    split at hT
    · cases hT
    · obtain rfl := Option.some.inj hT
      dsimp only at hmem
      rw [hrequests, List.nil_append] at hmem
      obtain ⟨buf', hbuf, heq⟩ := List.mem_map.mp hmem
      obtain ⟨rfl, rfl⟩ := Prod.mk.inj heq
      have hone := (api.decode_servicePkt _ _ _ _ _ _ (Option.mem_toList.mp hbuf) hp).1
      rw [hservice] at hone
      exact absurd hone (by decide)

/-- The acknowledgement, the live record and the record asked for are returned in turn. -/
theorem sessionActions_matched : ∃ L,
    Link.run? .tight .reliable client (registerActions ++ (receiveActions ++ requestActions))
      (.init .afterInit) = some L ∧
    (L.returned.map fun r => (r.call, r.result.map fun x => (x.1, x.2.header.service))) =
      [(.subscribeRegister 3 500 7, some (some 0, Utils.serResponse)),
        (.subscribe, some (none, Utils.serSend)), (.request 3 500 0 7, some (some 2, Utils.serSend))] ∧
    ∀ r ∈ L.returned, r.Matched := by
  have hrun : (Link.run? .tight .reliable client (registerActions ++ (receiveActions ++ requestActions))
      (.init .afterInit)).any fun L =>
        (L.returned.map fun r => (r.call, r.result.map fun x => (x.1, x.2.header.service))) =
          [(.subscribeRegister 3 500 7, some (some 0, Utils.serResponse)),
            (.subscribe, some (none, Utils.serSend)),
            (.request 3 500 0 7, some (some 2, Utils.serSend))] := by
    decide +kernel
  have hregistered : (Link.run? .tight .reliable client registerActions (.init .afterInit)).all fun L =>
      L.waiting.isNone ∧ (Link.run? .tight .reliable client receiveActions L).all fun L =>
        L.requests = [] ∧ L.replies = [] ∧ L.socket = [] := by
    decide +kernel
  obtain ⟨L, hL, hreturned⟩ := (Option.any_eq_true _ _).mp hrun
  refine ⟨L, hL, of_decide_eq_true hreturned, returned_matched _ _ _ _ _ L hL ?_⟩
  refine registerActions_undisturbed.append fun T hT => ?_
  rw [hT] at hregistered
  obtain ⟨hidle, hquiet⟩ := of_decide_eq_true hregistered
  refine (receiveActions_undisturbed (Option.isNone_iff_eq_none.mp hidle)).append fun U hU => ?_
  rw [hU] at hquiet
  have hempty : U.requests = [] ∧ U.replies = [] ∧ U.socket = [] := of_decide_eq_true hquiet
  exact requestActions_undisturbed hempty

end DRDS.PyApi
