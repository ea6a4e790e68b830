import DRDS.Handler.Reads
import DRDS.Server.Sequential

/-! The datagrams a call of the server sends: to whom, and of which kind. -/
namespace DRDS.Server
open Go

/-- The datagrams sent between two states all satisfy a predicate; the addresses and the tables
stay. -/
structure Sends (P : Addr × List UInt8 → Prop) (s t : Server) : Prop where
  addrs : t.allClientAddr = s.allClientAddr
  tables : t.world.tables = s.world.tables
  sent : ∃ ds, t.world.sent = s.world.sent ++ ds ∧ ∀ x ∈ ds, P x

def Allowed (P : Addr × List UInt8 → Prop) (s : Server) (dst : UInt8) (kind : List UInt8 → Prop) :
    Prop :=
  ∀ addr buf, s.allClientAddr dst = some addr → kind buf → P (addr, buf)

/-- Data of one id for a client, in one subframe. -/
def IsDataOf (dst : UInt8) (id : UInt16) (buf : List UInt8) : Prop :=
  ∃ v f, buf = wire v ∧ v.dst = dst ∧ v.service = Utils.serSend ∧ v.subframeNum = 1 ∧
    v.subpackets = [f] ∧ f.dataID = id

/-- A control packet of the service 0x0A. -/
def IsResponse (buf : List UInt8) : Prop :=
  ∃ v, buf = wire v ∧ v.service = Utils.serResponse ∧ v.subpackets = []

theorem isDataOf_dataPkt (e : Env) (s : Server) (dst priority : UInt8) (synt : UInt32)
    (flag : UInt8) (id : UInt16) (mat : List (List Float64)) :
    IsDataOf dst id (toServiceBuf (dataPkt e s dst priority synt flag id mat)) :=
  ⟨dataWire e s dst priority synt flag id mat, dataFrame id mat, toServiceBuf_dataPkt .., rfl, rfl,
    rfl, subpackets_dataWire .., rfl⟩

theorem isResponse_optPkt (e : Env) (s : Server) (dst priority : UInt8) (synt : UInt32)
    (flag opt1 opt2 : UInt8) :
    IsResponse (toServiceBuf (optPkt e s dst priority synt Utils.serResponse flag opt1 opt2)) :=
  ⟨_, toServiceBuf_eq_wire _, rfl, rfl⟩

section Sends
variable {P : Addr × List UInt8 → Prop} {e : Env} {s t u : Server}

theorem Sends.of_eq (haddrs : t.allClientAddr = s.allClientAddr)
    (htables : t.world.tables = s.world.tables) (hsent : t.world.sent = s.world.sent) :
    Sends P s t :=
  ⟨haddrs, htables, [], by rw [hsent, List.append_nil], by simp⟩

theorem Sends.refl (s : Server) : Sends P s s := .of_eq rfl rfl rfl

theorem Sends.trans (h₁ : Sends P s t) (h₂ : Sends P t u) : Sends P s u := by
  obtain ⟨ds₁, hds₁, hP₁⟩ := h₁.sent
  obtain ⟨ds₂, hds₂, hP₂⟩ := h₂.sent
  refine ⟨h₂.addrs.trans h₁.addrs, h₂.tables.trans h₁.tables, ds₁ ++ ds₂,
    by rw [hds₂, hds₁, List.append_assoc], ?_⟩
  intro x hx
  rcases List.mem_append.mp hx with hx | hx
  · exact hP₁ x hx
  · exact hP₂ x hx

theorem Allowed.congr {dst : UInt8} {kind : List UInt8 → Prop} (h : Allowed P s dst kind)
    (haddrs : t.allClientAddr = s.allClientAddr) : Allowed P t dst kind := by
  intro addr buf haddr
  rw [haddrs] at haddr
  exact h addr buf haddr

theorem transmit_sends {dst : UInt8} {buf : List UInt8}
    (h : ∀ addr, s.allClientAddr dst = some addr → P (addr, buf)) :
    Sends P s (s.transmit e dst buf).2 := by
  rcases transmit_cases e dst buf s with
    ⟨err, w, ht, htables, hw⟩ | ⟨addr, w, ht, htables, haddr, -, hw⟩
  · rw [ht]
    exact .of_eq rfl htables hw
  · rw [ht]
    refine ⟨rfl, htables, [(addr, buf)], hw, ?_⟩
    intro x hx
    rw [List.mem_singleton.mp hx]
    exact h addr haddr

theorem sendPkt_sends {dst : UInt8} {id : UInt16} (priority : UInt8) (synt : UInt32) (flag : UInt8)
    (mat : List (List Float64)) (h : Allowed P s dst (IsDataOf dst id)) :
    Sends P s (s.sendPkt e dst priority synt flag id mat).2 := by
  have hsend : Sends P s.numbered (s.sendPkt e dst priority synt flag id mat).2 :=
    transmit_sends fun addr haddr => h addr _ haddr (isDataOf_dataPkt ..)
  exact ⟨hsend.addrs, hsend.tables, hsend.sent⟩

theorem sendOpt_sends {dst : UInt8} (priority : UInt8) (synt : UInt32) (flag opt1 opt2 : UInt8)
    (h : Allowed P s dst IsResponse) :
    Sends P s (s.sendOpt e dst priority synt Utils.serResponse flag opt1 opt2).2 := by
  have hsend : Sends P s.numbered (s.numbered.transmit e dst
      (toServiceBuf (optPkt e s dst priority synt Utils.serResponse flag opt1 opt2))).2 :=
    transmit_sends fun addr haddr => h addr _ haddr (isResponse_optPkt ..)
  unfold sendOpt
  split
  all_goals
    rename_i heq
    rw [heq] at hsend
    exact ⟨hsend.addrs, hsend.tables, hsend.sent⟩

theorem queryLastSynt_sends (id : UInt16) : Sends P s (s.queryLastSynt e id).2 := by
  have hworld : (s.queryLastSynt e id).2.world = s.world.tick := queryLastSynt_world e id s.world
  have htables : (s.queryLastSynt e id).2.world.tables = s.world.tables := by
    rw [hworld, World.tick_tables]
  have hsent : (s.queryLastSynt e id).2.world.sent = s.world.sent := by
    rw [hworld, World.tick_sent]
  exact .of_eq rfl htables hsent

/-! ### Requests -/

theorem readSynt_sends (id : UInt16) (synt : UInt32) :
    Sends P s { s with world := (s.handler.readSynt e id synt s.world).2 } := by
  rw [Handler.readSynt_world]
  exact .of_eq rfl rfl rfl

theorem readRange_sends (id : UInt16) (start stop : UInt32) :
    Sends P s { s with world := (s.handler.readRange e id start stop s.world).2 } := by
  rw [Handler.readRange_world]
  exact .of_eq rfl rfl rfl

theorem request_sends {id : UInt16} {dst : UInt8} (synt : UInt32) (priority : UInt8)
    (h : Allowed P s dst (IsDataOf dst id)) : Sends P s (s.request e id synt dst priority).2 := by
  unfold request
  split_ifs
  · have hread := (queryLastSynt_sends (P := P) (e := e) (s := s) id).trans
      (readSynt_sends (e := e) id (s.queryLastSynt e id).1)
    dsimp only
    split
    · exact hread
    · exact hread.trans (sendPkt_sends priority _ _ _ (h.congr hread.addrs))
  · have hread := readSynt_sends (P := P) (e := e) (s := s) id synt
    dsimp only
    split
    · exact hread
    · exact hread.trans (sendPkt_sends priority _ _ _ (h.congr hread.addrs))

theorem requestRange_sends {id : UInt16} {dst : UInt8} (timeStart : UInt32) (timeDiff : UInt16)
    (priority : UInt8) (h : Allowed P s dst (IsDataOf dst id)) :
    Sends P s (s.requestRange e id timeStart timeDiff dst priority).2 := by
  unfold requestRange
  split_ifs
  · have hread := (queryLastSynt_sends (P := P) (e := e) (s := s) id).trans
      (readRange_sends (e := e) id timeStart (s.queryLastSynt e id).1)
    dsimp only
    split
    all_goals
      rename_i heq
      rw [heq] at hread
    · exact hread
    · exact hread.trans (sendPkt_sends _ timeStart _ _ (h.congr hread.addrs))
  · have hread := readRange_sends (P := P) (e := e) (s := s) id timeStart
      (timeStart + timeDiff.toUInt32)
    dsimp only
    split
    all_goals
      rename_i heq
      rw [heq] at hread
    · exact hread
    · exact hread.trans (sendPkt_sends _ timeStart _ _ (h.congr hread.addrs))

theorem requestCall_sends {p : ServicePacket (Slice UInt8)} {f : SubPacket (Slice UInt8)}
    (h : Allowed P s p.src (IsDataOf p.src f.dataID)) : Sends P s (requestCall e p f s).2 := by
  unfold requestCall
  split_ifs
  · exact request_sends _ _ h
  · exact requestRange_sends _ _ _ h

/-! ### Subscriptions -/

theorem history?_besides {id : UInt16} {last : UInt32} {n : ℕ} {i : UInt32} {s t : Server}
    {rows : List (List Float64)} (h : s.history? e id last n i = some (rows, t)) :
    ∃ calls, t = { s with world := { s.world with calls } } := by
  induction n generalizing i s rows with
  | zero => cases h
  | succ n ih =>
    unfold history? at h
    split_ifs at h
    · have hworld := s.handler.readSynt_world e id i s.world
      rcases hread : s.handler.readSynt e id i s.world with ⟨⟨recvT, row, err⟩, w⟩
      rw [hread] at h hworld
      obtain rfl : w = s.world.tick := hworld
      dsimp only at h
      split at h
      · cases h
      · rename_i heq
        cases h
        obtain ⟨calls, hcalls⟩ := ih heq
        exact ⟨calls, hcalls⟩
    · cases h
      exact ⟨_, rfl⟩

theorem subscribeAck_sends {dst : UInt8} (synt : UInt32) (h : Allowed P s dst IsResponse) :
    Sends P s (s.subscribeAck e dst synt).2 := sendOpt_sends _ synt _ _ _ h

/-- `Subscribe` has no history to send first. -/
def NoHistory (e : Env) (s : Server) (id : UInt16) (dst : UInt8) (synt : UInt32) : Prop :=
  dst ∉ s.subscriberRegister id ∨ (s.queryLastSynt e id).1 < synt

theorem subscribe_sends {id : UInt16} {dst : UInt8} {synt : UInt32} (rate : UInt16)
    (hack : Allowed P s dst IsResponse)
    (hdata : NoHistory e s id dst synt ∨ Allowed P s dst (IsDataOf dst id)) :
    Sends P s (s.subscribe e id dst synt rate).2 := by
  unfold subscribe subscribeFrom
  split_ifs with hfound
  · have hlast := queryLastSynt_sends (P := P) (e := e) (s := s) id
    dsimp only
    split_ifs with hle
    · have hdata' : Allowed P s dst (IsDataOf dst id) := by
        rcases hdata with (hnot | hlt) | hdata
        · exact absurd ((Utils.uint8Contains_iff _ _).mp hfound) hnot
        · exact absurd (UInt32.lt_of_le_of_lt hle hlt) (UInt32.lt_irrefl _)
        · exact hdata
      split
      · exact hlast
      · rename_i dataMap t hhist
        obtain ⟨calls, rfl⟩ := history?_besides hhist
        have hread := hlast.trans (u := { (s.queryLastSynt e id).2 with
          world := { (s.queryLastSynt e id).2.world with calls } }) (.of_eq rfl rfl rfl)
        have hsend := sendPkt_sends (e := e) Utils.priorityMedium synt Utils.flagSingle dataMap
          (hdata'.congr hread.addrs)
        exact (hread.trans hsend).trans
          (subscribeAck_sends synt (hack.congr (hread.trans hsend).addrs))
    · exact hlast.trans (subscribeAck_sends synt (hack.congr hlast.addrs))
  · have hadd : Sends P s
        { s with subscriberRegister := addClient s.subscriberRegister id dst } := .of_eq rfl rfl rfl
    exact hadd.trans (subscribeAck_sends synt (hack.congr hadd.addrs))

/-! ### Packets and goroutines -/

theorem callLoop_sends {α : Type} {body : α → Server → Outcome × Server} {xs : List α}
    (h : ∀ x ∈ xs, ∀ t, t.allClientAddr = s.allClientAddr → Sends P t (body x t).2) :
    Sends P s (callLoop body xs s).2 := by
  induction xs generalizing s with
  | nil => exact .refl s
  | cons x xs ih =>
    rw [List.forall_mem_cons] at h
    have hx := h.1 s rfl
    rcases hrun : body x s with ⟨o, t⟩
    rw [hrun] at hx
    by_cases ho : o = .returned none
    · subst ho
      rw [callLoop_cons_of_nil hrun]
      exact hx.trans (ih fun y hy u hu => h.2 y hy u (hu.trans hx.addrs))
    · rw [callLoop_cons_of_ne (by rw [hrun]; exact ho), hrun]
      exact hx

variable {g : Slice.Growth} {p : ServicePacket (Slice UInt8)}

theorem handlePkt_request_sends (hp : p.service = Utils.serRequest)
    (h : ∀ f ∈ p.subpackets, Allowed P s p.src (IsDataOf p.src f.dataID)) :
    Sends P s (handlePkt g e p s).server := by
  rw [handlePkt_request hp]
  exact callLoop_sends fun f hf t ht => requestCall_sends ((h f hf).congr ht)

/-- The history of a subframe depends on the registrations of those before it, so this is about
packets with one. -/
theorem handlePkt_subscribe_sends {f : SubPacket (Slice UInt8)} (hp : p.service = Utils.serSubscribe)
    (hf : p.subpackets = [f]) (hack : Allowed P s p.src IsResponse)
    (hdata : NoHistory e s f.dataID p.src p.simulinkTime) :
    Sends P s (handlePkt g e p s).server := by
  have hcall : Sends P s (subscribeCall e p f s).2 := subscribe_sends _ hack (.inl hdata)
  rw [handlePkt_subscribe hp, hf]
  rcases hrun : subscribeCall e p f s with ⟨o, t⟩
  by_cases ho : o = .returned none
  · subst ho
    rw [hrun] at hcall
    rw [callLoop_cons_of_nil hrun]
    exact hcall
  · rw [callLoop_cons_of_ne (by rw [hrun]; exact ho)]
    exact hcall

/-- A packet that is neither a request nor a subscription is not answered by its handling. -/
theorem handlePkt_sends (h : p.service = Utils.serRequest ∨ p.service = Utils.serSubscribe →
      Allowed P s p.src fun _ => True) : Sends P s (handlePkt g e p s).server := by
  by_cases hreq : p.service = Utils.serRequest
  · exact handlePkt_request_sends hreq fun f _ addr buf haddr _ => h (.inl hreq) addr buf haddr trivial
  · by_cases hsub : p.service = Utils.serSubscribe
    · have hall := h (.inr hsub)
      rw [handlePkt_subscribe hsub]
      refine callLoop_sends fun f _ t ht => subscribe_sends _ ?_ (.inr ?_)
      · exact fun addr buf haddr _ => hall.congr ht addr buf haddr trivial
      · exact fun addr buf haddr _ => hall.congr ht addr buf haddr trivial
    · have hsame : (handlePkt g e p s).server = s := by
        unfold handlePkt
        split_ifs
        · rfl
        · dsimp only
          split <;> rfl
        · rfl
      rw [hsame]
      exact .refl s

def Routine.client? : Routine → Option UInt8
  | .send .. => none
  | .sendPkt dst .. => some dst
  | .publish _ dst .. => some dst

theorem run_sends {r : Routine} (h : ∀ dst, r.client? = some dst → Allowed P s dst fun _ => True) :
    Sends P s (r.run e s).2 := by
  cases r with
  | send id time physicalTime rawData => exact .of_eq rfl rfl rfl
  | sendPkt dst priority synt flag id mat =>
    exact sendPkt_sends priority synt flag mat fun addr buf haddr _ => h dst rfl addr buf haddr trivial
  | publish id dst rows cols synt physicalTime rawData =>
    have hack : Allowed P s dst IsResponse := fun addr buf haddr _ => h dst rfl addr buf haddr trivial
    change Sends P s (publishFrom _ e id dst rows cols synt physicalTime rawData s).2
    unfold publishFrom
    split_ifs
    · have hlast := queryLastSynt_sends (P := P) (e := e) (s := s) id
      dsimp only
      split_ifs
      · exact hlast.trans (sendOpt_sends _ synt _ _ _ (hack.congr hlast.addrs))
      · obtain ⟨handler, hrows⟩ := publishRows_besides id synt physicalTime rawData cols.toNat
          (List.range rows.toNat) (s.queryLastSynt e id).2
        rw [hrows]
        exact hlast.trans (.of_eq rfl rfl rfl)
    · have hadd : Sends P s
          { s with publisherRegister := addClient s.publisherRegister id dst } := .of_eq rfl rfl rfl
      exact hadd.trans (sendOpt_sends _ synt _ _ _ (hack.congr hadd.addrs))

end Sends
end DRDS.Server
