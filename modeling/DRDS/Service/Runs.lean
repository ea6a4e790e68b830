import DRDS.Server.FanOut
import DRDS.Service.Provenance
import DRDS.Service.Startup

/-! Runs of a data service from its start: any number of goroutines, moving in any order, with any
datagrams and commands coming in between. -/
namespace DRDS
open Go Concurrency

theorem Server.afterInit_fresh : afterInit.Fresh where
  queues id queue hqueue := by
    simp only [afterInit] at hqueue
    split_ifs at hqueue
    cases hqueue
    rfl
  subscribers _ := rfl
  sent := rfl

namespace Service
open Server

/-- The goroutines after the start: a loop for each record table, entered at some time, the consumers and
the producers of all sockets, and `main`. -/
def launch (g : Slice.Growth) (e : Env) (server : Server) (subs : List (UInt16 × UInt8))
    (consumers producers : ℕ) (now : UInt16 → ℤ) : Pool Service Goroutine :=
  let goroutines := server.handler.recordTables.map (fun id => .handleData id ⟨[], now id⟩) ++
    .replicate consumers .consumer ++ .replicate producers .producer ++ [.main subs]
  ⟨⟨server, [], [], [], []⟩, goroutines.map (body g e), false⟩

section Runs
variable {g : Slice.Growth} {e : Env} {server : Server} {subs : List (UInt16 × UInt8)}
  {consumers producers : ℕ} {now : UInt16 → ℤ} {ms : List (Move Input)} {P : Pool Service Goroutine}

theorem launch_holds (g : Slice.Growth) (e : Env) (hfresh : server.Fresh) (admits : Input → Prop)
    (subs : List (UInt16 × UInt8)) (consumers producers : ℕ) (now : UInt16 → ℤ) :
    (contract g e ⟨server.world.rows, subs⟩ admits).Holds
      (launch g e server subs consumers producers now) := by
  refine (setting_keeps g e _ admits).holds ?_ fun r hr => ?_
  · change Inv g e ⟨server.world.rows, subs⟩ admits _
    refine ⟨List.forall_mem_nil _, List.forall_mem_nil _, List.forall_mem_nil _, List.forall_mem_nil _,
      Nat.zero_le _, ?_, ?_, ?_, ?_, ?_⟩
    · intro id queue hqueue data hdata
      rw [hfresh.queues id queue hqueue] at hdata
      cases hdata
    · intro id queue hqueue
      rw [hfresh.queues id queue hqueue]
      exact Nat.zero_le _
    · exact fun id r hr => .inl hr
    · intro id dst hdst
      rw [hfresh.subscribers id] at hdst
      cases hdst
    · intro x hx
      rw [hfresh.sent] at hx
      cases hx
  · simp only [List.mem_append, List.mem_map, List.mem_replicate, List.mem_singleton] at hr
    rcases hr with ((⟨id, _, rfl⟩ | ⟨_, rfl⟩) | ⟨_, rfl⟩) | rfl
    · exact fun data hdata => nomatch hdata
    · trivial
    · trivial
    · exact List.Subset.refl subs

theorem run_holds (hfresh : server.Fresh)
    (hrun : (launch g e server subs consumers producers now).run? (setting g e) ms = some P) :
    (contract g e ⟨server.world.rows, subs⟩ fun _ => True).Holds P :=
  ((setting_keeps g e _ _).run? (fun _ _ => trivial)
    (launch_holds g e hfresh _ subs consumers producers now) hrun).1

theorem run_later (hfresh : server.Fresh)
    (hrun : (launch g e server subs consumers producers now).run? (setting g e) ms = some P)
    {ms' : List (Move Input)} {Q : Pool Service Goroutine} (hrun' : P.run? (setting g e) ms' = some Q) :
    Later P.shared Q.shared :=
  ((setting_keeps g e _ _).run? (fun _ _ => trivial) (run_holds hfresh hrun) hrun').2

/-- The structure agent is subscribed, a record arrives, it is forwarded, and 100 ms later stored. -/
def recordRun : List (Move Input) :=
  List.replicate 6 (.thread 3 0) ++ [.outside (.datagram (wire valuePacket))] ++
    List.replicate 3 (.thread 2 0) ++ List.replicate 5 (.thread 1 0) ++
    List.replicate 2 (.thread 4 0) ++ List.replicate 3 (.thread 5 0) ++
    [.thread 0 0, .thread 0 0, .thread 0 100000000] ++ List.replicate 4 (.thread 0 0)

theorem recordRun_runs : ∃ P,
    (launch .tight .reliable afterInit [(3, 2)] 1 1 fun _ => 0).run? (setting .tight .reliable) recordRun =
      some P ∧ P.shared.server.world.sent.length = 2 ∧ (P.shared.server.world.rows 3).length = 1 := by
  have hrun : ((launch .tight .reliable afterInit [(3, 2)] 1 1 fun _ => 0).run? (setting .tight .reliable)
      recordRun).any (fun P => P.shared.server.world.sent.length = 2 ∧
        (P.shared.server.world.rows 3).length = 1) := by
    decide +kernel
  obtain ⟨P, hP, hends⟩ := (Option.any_eq_true _ _).mp hrun
  exact ⟨P, hP, of_decide_eq_true hends⟩

/-- Every datagram sent so far goes to a client that has asked for it, with what was given. -/
theorem sent_justified (hfresh : server.Fresh)
    (hrun : (launch g e server subs consumers producers now).run? (setting g e) ms = some P) :
    ∀ x ∈ P.shared.server.world.sent, Justified g e ⟨server.world.rows, subs⟩ P.shared x :=
  (run_holds hfresh hrun).inv.sent

theorem sent_justified_recordRun : ∃ P,
    (launch .tight .reliable afterInit [(3, 2)] 1 1 fun _ => 0).run? (setting .tight .reliable) recordRun =
      some P ∧ P.shared.server.world.sent.length = 2 ∧
        ∀ x ∈ P.shared.server.world.sent, Justified .tight .reliable ⟨afterInit.world.rows, [(3, 2)]⟩ P.shared x := by
  obtain ⟨P, hrun, hsent, _⟩ := recordRun_runs
  exact ⟨P, hrun, hsent, sent_justified afterInit_fresh hrun⟩

/-- Every record of a table so far is one it had at the start or one that was given for it. -/
theorem rows_recorded (hfresh : server.Fresh)
    (hrun : (launch g e server subs consumers producers now).run? (setting g e) ms = some P)
    (id : UInt16) : ∀ r ∈ P.shared.server.world.rows id,
      Recorded g e ⟨server.world.rows, subs⟩ P.shared id r :=
  (run_holds hfresh hrun).inv.rows id

theorem rows_recorded_recordRun : ∃ P,
    (launch .tight .reliable afterInit [(3, 2)] 1 1 fun _ => 0).run? (setting .tight .reliable) recordRun =
      some P ∧ (P.shared.server.world.rows 3).length = 1 ∧ ∀ r ∈ P.shared.server.world.rows 3,
        Recorded .tight .reliable ⟨afterInit.world.rows, [(3, 2)]⟩ P.shared 3 r := by
  obtain ⟨P, hrun, _, hrows⟩ := recordRun_runs
  exact ⟨P, hrun, hrows, rows_recorded afterInit_fresh hrun 3⟩

/-- The process dies only of a datagram that does not decode or whose packet is published or has more
cells than values; and it dies of any packet that is published. -/
theorem panicked_fault (g : Slice.Growth) (e : Env) (hfresh : server.Fresh)
    (hrun : (launch g e server subs consumers producers now).run? (setting g e) ms = some P) :
    (P.panicked → P.shared.Fault) ∧
    ∀ pkt, P.shared.Received pkt → pkt.service = Utils.serPublish → handlePkt g e pkt = .panic := by
  refine ⟨(run_holds hfresh hrun).fault, fun pkt hpkt hpublish => ?_⟩
  rw [handlePkt, hpublish, if_neg (by decide), if_neg (by decide), if_pos rfl,
    payload_of_received hpkt g]

/-- A packet without subframes is published. -/
theorem panicked_fault_published : ∃ P,
    (launch .tight .reliable afterInit [] 1 1 fun _ => 0).run? (setting .tight .reliable)
      ([.outside (.datagram (wire (clientPacket Utils.serPublish [] [])))] ++
        List.replicate 3 (.thread 2 0) ++ List.replicate 2 (.thread 1 0)) = some P ∧
      P.panicked ∧ (P.panicked → P.shared.Fault) ∧ ∀ pkt, P.shared.Received pkt →
        pkt.service = Utils.serPublish → handlePkt .tight .reliable pkt = .panic := by
  have hrun : ((launch .tight .reliable afterInit [] 1 1 fun _ => 0).run? (setting .tight .reliable)
      ([.outside (.datagram (wire (clientPacket Utils.serPublish [] [])))] ++
        List.replicate 3 (.thread 2 0) ++ List.replicate 2 (.thread 1 0))).any (·.panicked) := by
    decide +kernel
  obtain ⟨P, hP, hends⟩ := (Option.any_eq_true _ _).mp hrun
  exact ⟨P, hP, hends, panicked_fault .tight .reliable afterInit_fresh hP⟩

/-! ### Answers -/

section Answers
variable {e : Env} {S T : Service}

theorem select_later (hST : Later S T) (he : e.statement T.server.world.calls = none) {id : UInt16}
    {wellFormed : Bool} {columns : ℕ} {keep : Row → Bool} {rows : List Row}
    (hsel : (S.server.world.select e id wellFormed columns keep).1 = .ok rows) :
    ∃ rows', (T.server.world.select e id wellFormed columns keep).1 = .ok (rows ++ rows') := by
  unfold World.select at hsel
  cases hanswer : e.statement S.server.world.calls with
  | some err => simp [hanswer] at hsel
  | none =>
    cases ht : S.server.world.tables id with
    | none => simp [hanswer, ht] at hsel
    | some t =>
      simp only [hanswer, ht] at hsel
      split_ifs at hsel with hcolumns
      cases hsel
      have hmap := hST.columns id
      have hprefix := hST.rows id
      rw [ht, Option.map_some] at hmap
      obtain ⟨t', ht', hsame⟩ := Option.map_eq_some_iff.mp hmap
      rw [World.rows_of_table ht, World.rows_of_table ht'] at hprefix
      obtain ⟨rest, hrest⟩ := hprefix
      rw [World.select, he, ht']
      dsimp only
      rw [if_pos (hsame ▸ hcolumns), ← hrest, List.filter_append, List.map_append]
      exact ⟨_, rfl⟩

theorem readSynt_later (hST : Later S T) (he : e.statement T.server.world.calls = none) {id : UInt16}
    {synt : UInt32}
    (h : (S.server.handler.readSynt e id synt S.server.world).1 ≠ (0, [], none)) :
    (T.server.handler.readSynt e id synt T.server.world).1 =
      (S.server.handler.readSynt e id synt S.server.world).1 := by
  unfold Handler.readSynt at h ⊢
  rw [hST.dataShapes]
  dsimp only at h ⊢
  rcases hsel : S.server.world.select e id (0 < S.server.handler.dataShapes id)
    (S.server.handler.dataShapes id).toNat (·.iter = synt) with ⟨_ | (_ | ⟨r, rows⟩), w⟩
  · simp [hsel] at h
  · simp [hsel] at h
  · obtain ⟨rows', hsel'⟩ := select_later hST he (congrArg Prod.fst hsel)
    rcases hsel'' : T.server.world.select e id (0 < S.server.handler.dataShapes id)
      (S.server.handler.dataShapes id).toNat (·.iter = synt) with ⟨answer, w'⟩
    rw [hsel''] at hsel'
    cases hsel'
    rw [List.cons_append]
    dsimp only
    split_ifs <;> rfl

theorem readRange_later (hST : Later S T) (he : e.statement T.server.world.calls = none) {id : UInt16}
    {start stop : UInt32} {simuVec : List UInt32} {phyVec : List UInt64} {dataMat : List (List Float64)}
    (h : (S.server.handler.readRange e id start stop S.server.world).1 =
      .ok (simuVec, phyVec, dataMat)) :
    ∃ simuVec' phyVec' dataMat', (T.server.handler.readRange e id start stop T.server.world).1 =
      .ok (simuVec ++ simuVec', phyVec ++ phyVec', dataMat ++ dataMat') := by
  unfold Handler.readRange at h ⊢
  rw [hST.dataShapes]
  dsimp only at h ⊢
  rcases hsel : S.server.world.select e id (0 < S.server.handler.dataShapes id)
    (S.server.handler.dataShapes id).toNat (fun r => start ≤ r.iter ∧ r.iter < stop) with
    ⟨_ | rows, w⟩
  · rw [hsel] at h
    cases h
  · obtain ⟨rows', hsel'⟩ := select_later hST he (congrArg Prod.fst hsel)
    rcases hsel'' : T.server.world.select e id (0 < S.server.handler.dataShapes id)
      (S.server.handler.dataShapes id).toNat (fun r => start ≤ r.iter ∧ r.iter < stop) with ⟨answer, w'⟩
    rw [hsel''] at hsel'
    cases hsel'
    rw [hsel] at h
    cases h
    dsimp only
    rw [List.map_append, List.flatMap_append, List.flatMap_append, List.map_append]
    exact ⟨_, _, _, rfl⟩

theorem queryLastSynt_later (hST : Later S T) (he : e.statement T.server.world.calls = none)
    (id : UInt16) :
    (DRDS.queryLastSynt e id S.server.world).1 ≤ (DRDS.queryLastSynt e id T.server.world).1 := by
  rcases reached_queryLastSynt e id S.server.world with hzero | ⟨r, hr, hle⟩
  · rw [hzero]
    exact UInt32.zero_le
  · have hr' := (hST.rows id).subset hr
    cases ht : T.server.world.tables id with
    | none => simp [World.rows, ht] at hr'
    | some t =>
      rw [World.rows_of_table ht] at hr'
      rw [queryLastSynt_of_answer ht he]
      exact UInt32.le_trans hle (Table.le_lastSynt hr')

end Answers

/-- Whatever goes on in between, a read that the database answers finds all that any read before it has
found: the same record, at least the same range, and no smaller last time. -/
theorem answers_last (hfresh : server.Fresh)
    (hrun : (launch g e server subs consumers producers now).run? (setting g e) ms = some P)
    {ms' : List (Move Input)} {Q : Pool Service Goroutine} (hrun' : P.run? (setting g e) ms' = some Q)
    (he : e.statement Q.shared.server.world.calls = none) (id : UInt16) :
    (∀ synt, (P.shared.server.handler.readSynt e id synt P.shared.server.world).1 ≠ (0, [], none) →
      (Q.shared.server.handler.readSynt e id synt Q.shared.server.world).1 =
        (P.shared.server.handler.readSynt e id synt P.shared.server.world).1) ∧
    (∀ start stop simuVec phyVec dataMat,
      (P.shared.server.handler.readRange e id start stop P.shared.server.world).1 =
        .ok (simuVec, phyVec, dataMat) → ∃ simuVec' phyVec' dataMat',
      (Q.shared.server.handler.readRange e id start stop Q.shared.server.world).1 =
        .ok (simuVec ++ simuVec', phyVec ++ phyVec', dataMat ++ dataMat')) ∧
    (DRDS.queryLastSynt e id P.shared.server.world).1 ≤ (DRDS.queryLastSynt e id Q.shared.server.world).1 := by
  have hlater := run_later hfresh hrun hrun'
  exact ⟨fun _ h => readSynt_later hlater he h, fun _ _ _ _ _ h => readRange_later hlater he h,
    queryLastSynt_later hlater he id⟩

/-- The record is read again after a round that receives none. -/
theorem answers_last_recordRun : ∃ P Q,
    (launch .tight .reliable afterInit [(3, 2)] 1 1 fun _ => 0).run? (setting .tight .reliable) recordRun =
      some P ∧ P.run? (setting .tight .reliable) [.thread 0 1, .thread 0 200000000] = some Q ∧
    (P.shared.server.handler.readSynt .reliable 3 500 P.shared.server.world).1 ≠ (0, [], none) ∧
    (Q.shared.server.handler.readSynt .reliable 3 500 Q.shared.server.world).1 =
      (P.shared.server.handler.readSynt .reliable 3 500 P.shared.server.world).1 := by
  have hrun : ((launch .tight .reliable afterInit [(3, 2)] 1 1 fun _ => 0).run? (setting .tight .reliable)
      recordRun).any (fun P => (P.run? (setting .tight .reliable) [.thread 0 1, .thread 0 200000000]).isSome ∧
        (P.shared.server.handler.readSynt .reliable 3 500 P.shared.server.world).1 ≠ (0, [], none)) := by
    decide +kernel
  obtain ⟨P, hP, hends⟩ := (Option.any_eq_true _ _).mp hrun
  obtain ⟨hsome, hfound⟩ := of_decide_eq_true hends
  obtain ⟨Q, hQ⟩ := Option.isSome_iff_exists.mp hsome
  exact ⟨P, Q, hP, hQ, hfound, (answers_last afterInit_fresh hP hQ rfl 3).1 500 hfound⟩

end Runs
end Service
end DRDS
