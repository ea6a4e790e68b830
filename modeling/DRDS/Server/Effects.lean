import DRDS.Handler.Reads
import DRDS.Server.FanOut
import DRDS.Server.Subframes

/-! The effect of a run: the records it enqueues, the clients it registers and the datagrams it
sends. -/
namespace DRDS.Server
open Go

/-- Records enqueued, clients registered and datagrams sent. -/
structure Added where
  records : UInt16 → List Data
  clients : UInt16 → List UInt8
  datagrams : List (Addr × List UInt8)

def Added.nothing : Added := ⟨fun _ => [], fun _ => [], []⟩

def Added.append (x y : Added) : Added where
  records id := x.records id ++ y.records id
  clients id := x.clients id ++ y.clients id
  datagrams := x.datagrams ++ y.datagrams

def Added.onlyDatagrams (ds : List (Addr × List UInt8)) : Added := { Added.nothing with datagrams := ds }

/-- A run adds so much, and changes nothing else that a round looks at. -/
structure Adds (x : Added) (s t : Server) : Prop where
  records : ∀ id, t.handler.dataBuffer id = (s.handler.dataBuffer id).map (· ++ x.records id)
  clients : ∀ id, t.publisherRegister id = s.publisherRegister id ++ x.clients id
  datagrams : t.world.sent = s.world.sent ++ x.datagrams
  tables : t.world.tables = s.world.tables
  addr : t.allClientAddr = s.allClientAddr
  subscribers : t.subscriberRegister = s.subscriberRegister

/-- None of it can be seen: a record for an id without a channel is dropped. -/
structure Added.Unseen (x : Added) (s : Server) : Prop where
  records : ∀ id, s.handler.dataBuffer id ≠ none → x.records id = []
  clients : ∀ id, x.clients id = []
  datagrams : x.datagrams = []

theorem Adds.of_same {s t : Server} (hrec : t.handler.dataBuffer = s.handler.dataBuffer)
    (hcl : t.publisherRegister = s.publisherRegister) (hsent : t.world.sent = s.world.sent)
    (htab : t.world.tables = s.world.tables) (haddr : t.allClientAddr = s.allClientAddr)
    (hsub : t.subscriberRegister = s.subscriberRegister) : Adds .nothing s t where
  records id := by simp [hrec, Added.nothing]
  clients id := by simp [hcl, Added.nothing]
  datagrams := by simp [hsent, Added.nothing]
  tables := htab
  addr := haddr
  subscribers := hsub

theorem Adds.refl (s : Server) : Adds .nothing s s := .of_same rfl rfl rfl rfl rfl rfl

theorem Adds.trans {x y : Added} {s t u : Server} (h₁ : Adds x s t) (h₂ : Adds y t u) :
    Adds (x.append y) s u where
  records id := by
    rw [h₂.records, h₁.records]
    cases s.handler.dataBuffer id <;> simp [Added.append]
  clients id := by
    rw [h₂.clients, h₁.clients, List.append_assoc]
    rfl
  datagrams := by
    rw [h₂.datagrams, h₁.datagrams, List.append_assoc]
    rfl
  tables := h₂.tables.trans h₁.tables
  addr := h₂.addr.trans h₁.addr
  subscribers := h₂.subscribers.trans h₁.subscribers

theorem Adds.trans_of_nothing {x : Added} {s t u : Server} (h₁ : Adds .nothing s t)
    (h₂ : Adds x t u) : Adds x s u := h₁.trans h₂

theorem Added.Unseen.left {x y : Added} {s : Server} (h : (x.append y).Unseen s) : x.Unseen s where
  records id hid := (List.append_eq_nil_iff.mp (h.records id hid)).1
  clients id := (List.append_eq_nil_iff.mp (h.clients id)).1
  datagrams := (List.append_eq_nil_iff.mp h.datagrams).1

/-! ### The same effect -/

def withoutStamp (d : Addr × List UInt8) : Addr × List UInt8 :=
  (d.1, d.2.take 4 ++ (d.2.drop 8).take 4 ++ d.2.drop 14)

/-- Two runs end the same way, with the same records enqueued, the same registers and, up to
stamps, the same datagrams. -/
structure SameEffect (x y : Outcome × Server) : Prop where
  outcome : x.1 = y.1
  records : x.2.handler.dataBuffer = y.2.handler.dataBuffer
  registers : registers x.2 = registers y.2
  datagrams : x.2.world.sent.map withoutStamp = y.2.world.sent.map withoutStamp

theorem SameEffect.refl (x : Outcome × Server) : SameEffect x x := ⟨rfl, rfl, rfl, rfl⟩

theorem SameEffect.symm {x y : Outcome × Server} (h : SameEffect x y) : SameEffect y x :=
  ⟨h.outcome.symm, h.records.symm, h.registers.symm, h.datagrams.symm⟩

theorem SameEffect.trans {x y z : Outcome × Server} (h₁ : SameEffect x y) (h₂ : SameEffect y z) :
    SameEffect x z :=
  ⟨h₁.outcome.trans h₂.outcome, h₁.records.trans h₂.records, h₁.registers.trans h₂.registers,
    h₁.datagrams.trans h₂.datagrams⟩

theorem sameEffect_iff_unseen {o : Outcome} {x : Added} {s t : Server} (h : Adds x s t) :
    SameEffect (o, s) (o, t) ↔ x.Unseen s := by
  constructor
  · intro hsame
    constructor
    · intro id hid
      have hrec := congrFun hsame.records id
      obtain ⟨queue, hqueue⟩ := Option.ne_none_iff_exists'.mp hid
      have hadd := h.records id
      rw [hqueue] at hadd
      dsimp only at hrec
      rw [hqueue, hadd, Option.map_some, Option.some.injEq] at hrec
      exact List.self_eq_append_right.mp hrec
    · intro id
      have hreg := congrFun (congrArg Prod.fst hsame.registers) id
      change s.publisherRegister id = t.publisherRegister id at hreg
      rw [h.clients id] at hreg
      exact List.self_eq_append_right.mp hreg
    · have hsent := congrArg List.length hsame.datagrams
      dsimp only at hsent
      rw [h.datagrams, List.length_map, List.length_map, List.length_append] at hsent
      exact List.eq_nil_of_length_eq_zero (by omega)
  · intro hx
    constructor
    · rfl
    · funext id
      dsimp only
      rw [h.records id]
      cases hid : s.handler.dataBuffer id with
      | none => rfl
      | some queue => simp [hx.records id (by simp [hid])]
    · have hpub : t.publisherRegister = s.publisherRegister := by
        funext id
        rw [h.clients id, hx.clients id, List.append_nil]
      rw [Server.registers, Server.registers]
      exact Prod.ext hpub.symm h.subscribers.symm
    · dsimp only
      rw [h.datagrams, hx.datagrams, List.append_nil]

/-! ### Calls that succeed -/

section Calls
variable {e : Env} {s : Server} {dst : UInt8}

theorem transmit_adds {buf : List UInt8} (h : Answers e s dst) (hlen : buf.length ≤ 65507) :
    ∃ t d, s.transmit e dst buf = (none, t) ∧ Adds (.onlyDatagrams [d]) s t := by
  rcases transmit_cases e dst buf s with ⟨err, w, htr, _⟩ | ⟨addr, w, htr, htab, _, _, hsent⟩
  · have hnone := transmit_of_answers h hlen
    rw [htr] at hnone
    cases hnone
  · refine ⟨_, (addr, buf), htr, fun id => ?_, fun id => (List.append_nil _).symm, hsent, htab, rfl, rfl⟩
    simp [Added.onlyDatagrams, Added.nothing]

/-- Sequence number and clock are not looked at. -/
theorem Adds.stamped {x : Added} {t : Server} (sequence : UInt16) (h : Adds x s.numbered t) :
    Adds x s { t with sequence } :=
  ⟨h.records, h.clients, h.datagrams, h.tables, h.addr, h.subscribers⟩

theorem sendOpt_adds (priority : UInt8) (synt : UInt32) (service flag opt1 opt2 : UInt8)
    (h : Answers e s dst) : ∃ t d, s.sendOpt e dst priority synt service flag opt1 opt2 = (none, t) ∧
      Adds (.onlyDatagrams [d]) s t := by
  have hlen : (toServiceBuf (optPkt e s dst priority synt service flag opt1 opt2)).length ≤ 65507 := by
    simp [toServiceBuf, bufExt, headerBuf, optPkt]
  obtain ⟨t, d, htr, hadds⟩ := transmit_adds (s := s.numbered) h hlen
  exact ⟨{ t with sequence := t.sequence + 1 }, d, by rw [sendOpt, htr], hadds.stamped _⟩

theorem sendPkt_adds (priority : UInt8) (synt : UInt32) (flag : UInt8) (dataID : UInt16)
    {mat : List (List Float64)} (h : Answers e s dst) (hlen : 30 + 8 * mat.flatten.length ≤ 65507) :
    ∃ t d, s.sendPkt e dst priority synt flag dataID mat = (none, t) ∧
      Adds (.onlyDatagrams [d]) s t := by
  have hlen' : (toServiceBuf (dataPkt e s dst priority synt flag dataID mat)).length ≤ 65507 := by
    rw [length_toServiceBuf_dataPkt]
    exact hlen
  obtain ⟨t, d, htr, hadds⟩ := transmit_adds (s := s.numbered) h hlen'
  exact ⟨t, d, htr, hadds.stamped t.sequence⟩

theorem Answers.of_adds {x : Added} {t : Server} (h : Answers e s dst) (hadds : Adds x s t) :
    Answers e t dst := by
  obtain ⟨addr, haddr, hnet⟩ := h
  exact ⟨addr, by rw [hadds.addr, haddr], hnet⟩

theorem forwards_adds (priority : UInt8) (synt : UInt32) (flag : UInt8) (dataID : UInt16)
    {mat : List (List Float64)} {clients : List UInt8} (h : ∀ c ∈ clients, Answers e s c)
    (hlen : 30 + 8 * mat.flatten.length ≤ 65507) :
    ∃ t ds, runRoutines e (clients.map fun dst => .sendPkt dst priority synt flag dataID mat) s =
      (.returned none, t) ∧ Adds (.onlyDatagrams ds) s t ∧ ds.length = clients.length := by
  induction clients generalizing s with
  | nil => exact ⟨s, [], rfl, .refl s, rfl⟩
  | cons c clients ih =>
    rw [List.forall_mem_cons] at h
    obtain ⟨t, d, hsend, hadds⟩ := sendPkt_adds priority synt flag dataID h.1 hlen
    obtain ⟨u, ds, hrest, hadds', hcount⟩ := ih fun c' hc' => (h.2 c' hc').of_adds hadds
    refine ⟨u, d :: ds, ?_, hadds.trans hadds', by rw [List.length_cons, List.length_cons, hcount]⟩
    have hrun : (Routine.sendPkt c priority synt flag dataID mat).run e s = (.returned none, t) := by
      rw [Routine.run, hsend]
    rw [List.map_cons, runRoutines, hrun]
    exact hrest

/-- Records are enqueued in a channel, or dropped when there is none. -/
def Added.onlyRecords (id : UInt16) (records : List Data) : Added :=
  { Added.nothing with records := fun i => if i = id then records else [] }

theorem writeToBuffer_adds {id : UInt16} (data : Data)
    (hroom : ∀ queue, s.handler.dataBuffer id = some queue → queue.length < Utils.buffLen) :
    ∃ t, s.writeToBuffer id data = (none, t) ∧ Adds (.onlyRecords id [data]) s t := by
  unfold writeToBuffer Handler.writeToBuffer
  cases hid : s.handler.dataBuffer id with
  | none =>
    refine ⟨s, rfl, fun i => ?_, fun i => (List.append_nil _).symm, (List.append_nil _).symm, rfl,
      rfl, rfl⟩
    by_cases hi : i = id
    · subst hi
      simp [hid]
    · simp [Added.onlyRecords, hi]
  | some queue =>
    dsimp only
    rw [if_neg (not_le.mpr (hroom queue hid))]
    refine ⟨_, rfl, fun i => ?_, fun i => (List.append_nil _).symm, (List.append_nil _).symm, rfl,
      rfl, rfl⟩
    by_cases hi : i = id
    · subst hi
      simp [hid, Added.onlyRecords]
    · simp [Added.onlyRecords, hi]

theorem Added.onlyRecords_append (id : UInt16) (l l' : List Data) :
    (Added.onlyRecords id l).append (.onlyRecords id l') = .onlyRecords id (l ++ l') := by
  simp only [Added.append, onlyRecords, nothing, Added.mk.injEq, List.append_nil, and_true]
  funext i
  split_ifs <;> rfl

theorem Added.length_onlyRecords_le (id : UInt16) (l : List Data) (i : UInt16) :
    ((Added.onlyRecords id l).records i).length ≤ l.length := by
  dsimp only [Added.onlyRecords]
  split_ifs
  · exact Nat.le_refl _
  · exact Nat.zero_le _

theorem Added.onlyRecords_unseen_iff {id : UInt16} {l : List Data} :
    (Added.onlyRecords id l).Unseen s ↔ l = [] ∨ s.handler.dataBuffer id = none := by
  constructor
  · intro h
    by_cases hid : s.handler.dataBuffer id = none
    · exact .inr hid
    · have hrec := h.records id hid
      simp only [Added.onlyRecords, if_true] at hrec
      exact .inl hrec
  · intro h
    refine ⟨fun i hi => ?_, fun _ => rfl, rfl⟩
    dsimp only [Added.onlyRecords]
    split_ifs with heq
    · subst heq
      exact h.resolve_right hi
    · rfl

def HasRoom (s : Server) (id : UInt16) (n : ℕ) : Prop :=
  ∀ queue, s.handler.dataBuffer id = some queue → queue.length + n ≤ Utils.buffLen

theorem HasRoom.of_adds {x : Added} {t : Server} {id : UInt16} {m n : ℕ}
    (h : HasRoom s id (m + n)) (hadds : Adds x s t) (hx : (x.records id).length ≤ m) :
    HasRoom t id n := by
  intro queue hqueue
  have hrec := hadds.records id
  cases hid : s.handler.dataBuffer id with
  | none =>
    rw [hqueue, hid] at hrec
    cases hrec
  | some old =>
    have hold := h old hid
    rw [hqueue, hid, Option.map_some, Option.some.injEq] at hrec
    rw [hrec, List.length_append]
    omega

theorem HasRoom.lt {id : UInt16} {n : ℕ} (h : HasRoom s id (1 + n)) (queue : List Data)
    (hqueue : s.handler.dataBuffer id = some queue) : queue.length < Utils.buffLen := by
  have hlen := h queue hqueue
  omega

section Rows
variable {id : UInt16} {raw : Slice Float64} {col : ℕ} {rows : List ℕ}

theorem publishRows_adds (synt physicalTime : UInt32)
    (hin : ∀ row ∈ rows, (row + 1) * col ≤ raw.cap) (hroom : HasRoom s id rows.length) :
    ∃ t records, publishRows id synt physicalTime raw col rows s = (.returned none, t) ∧
      Adds (.onlyRecords id records) s t ∧ records.length = rows.length := by
  induction rows generalizing s with
  | nil =>
    have hnothing : Added.onlyRecords id [] = .nothing := by simp [Added.onlyRecords, Added.nothing]
    exact ⟨s, [], rfl, hnothing ▸ .refl s, rfl⟩
  | cons row rows ih =>
    rw [List.forall_mem_cons] at hin
    rw [List.length_cons, Nat.add_comm] at hroom
    obtain ⟨value, hvalue⟩ : ∃ value, raw.slice? (row * col) ((row + 1) * col) = some value :=
      ⟨_, dif_pos ⟨Nat.mul_le_mul_right _ (Nat.le_succ row), hin.1⟩⟩
    let data : Data := ⟨synt + .ofNat row, physicalTime, value.toList⟩
    obtain ⟨t, hwrite, hadds⟩ := writeToBuffer_adds data hroom.lt
    have hroom' : HasRoom t id rows.length := hroom.of_adds hadds (by simp [Added.onlyRecords])
    obtain ⟨u, records, hrest, hadds', hlen⟩ := ih hin.2 hroom'
    refine ⟨u, data :: records, ?_, ?_, by rw [List.length_cons, List.length_cons, hlen]⟩
    · rw [publishRows, hvalue]
      dsimp only
      rw [hwrite]
      exact hrest
    · have happend := Added.onlyRecords_append id [data] records
      rw [List.singleton_append] at happend
      rw [← happend]
      exact hadds.trans hadds'

theorem publishRows_panics (synt physicalTime : UInt32)
    (hout : ∃ row ∈ rows, raw.cap < (row + 1) * col) (hroom : HasRoom s id rows.length) :
    ∃ t, publishRows id synt physicalTime raw col rows s = (.panicked, t) := by
  induction rows generalizing s with
  | nil => simp at hout
  | cons row rows ih =>
    rw [publishRows]
    cases hvalue : raw.slice? (row * col) ((row + 1) * col) with
    | none => exact ⟨s, rfl⟩
    | some value =>
      have hrow : (row + 1) * col ≤ raw.cap := (Slice.slice?_some hvalue).2.1
      have hrest : ∃ r ∈ rows, raw.cap < (r + 1) * col := by
        obtain ⟨r, hr, hlt⟩ := hout
        rcases List.mem_cons.mp hr with rfl | hr
        · omega
        · exact ⟨r, hr, hlt⟩
      rw [List.length_cons, Nat.add_comm] at hroom
      obtain ⟨t, hwrite, hadds⟩ := writeToBuffer_adds
        ⟨synt + .ofNat row, physicalTime, value.toList⟩ hroom.lt
      dsimp only
      rw [hwrite]
      exact ih hrest (hroom.of_adds hadds (by simp [Added.onlyRecords]))

theorem range_inside_iff (row : UInt8) :
    (∀ r ∈ List.range row.toNat, (r + 1) * col ≤ raw.cap) ↔ row.toNat * col ≤ raw.cap := by
  constructor
  · intro h
    rcases Nat.eq_zero_or_pos row.toNat with hzero | hpos
    · simp [hzero]
    · have hlast := h (row.toNat - 1) (List.mem_range.mpr (by omega))
      rwa [Nat.sub_add_cancel hpos] at hlast
  · intro h r hr
    exact (Nat.mul_le_mul_right _ (List.mem_range.mp hr)).trans h

end Rows

end Calls

end DRDS.Server
