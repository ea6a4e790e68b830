import DRDS.Server.Consumers
import DRDS.Server.Effects

/-! The subframes of a `SER_PUBLISH` packet: its loop returns at the first that is empty, and
what stands behind is handled only in a packet of its own. -/
namespace DRDS.Server
open Go

/-! ### A round -/

def subframeTime (p : ServicePacket (Slice UInt8)) (f : SubPacket (Slice UInt8)) : UInt32 :=
  p.simulinkTime + f.timeDiff.toUInt32

section Conditions
variable (e : Env) (s : Server) (p : ServicePacket (Slice UInt8)) (raw : Slice Float64)
  (before : List UInt16) (f : SubPacket (Slice UInt8))

/-- The client has registered as a publisher of the id, before the packet or with an earlier
subframe of it, and is not behind the table. -/
def Heard : Prop :=
  (p.src ∈ s.publisherRegister f.dataID ∨ f.dataID ∈ before) ∧
    (s.queryLastSynt e f.dataID).1 ≤ subframeTime p f

/-- Rows of the subframe are sliced, and some of them lie beyond the decoded payload. -/
def Crashes : Prop :=
  raw.cap < f.row.toNat * f.col.toNat ∧
    (Heard e s p before f ∨ f.length ≠ 0 ∧ s.subscriberRegister f.dataID ≠ [])

/-- The subframe leads to nothing: the client is heard, there is no record to enqueue, and
nobody to forward to. -/
def Idle : Prop :=
  Heard e s p before f ∧
    (f.row = 0 ∨ s.handler.dataBuffer f.dataID = none ∧ f.row.toNat * f.col.toNat ≤ raw.cap) ∧
    (f.length = 0 ∨ s.subscriberRegister f.dataID = [])

end Conditions

/-- The loop ends in a panic, or leads to no less than its subframes do one by one: behind the
first empty subframe all are idle. -/
def Sums (e : Env) (s : Server) (p : ServicePacket (Slice UInt8)) (raw : Slice Float64) :
    List UInt16 → List (SubPacket (Slice UInt8)) → Prop
  | _, [] => True
  | before, f :: fs => Crashes e s p raw before f ∨
    if f.length = 0 then ∀ h ∈ fs, Idle e s p raw (before ++ [f.dataID]) h
    else Sums e s p raw (before ++ [f.dataID]) fs

/-- The calls that publishing makes succeed: the database answers, the network sends, and no
channel is full. -/
structure PublishSucceeds (e : Env) (s : Server) (p : ServicePacket (Slice UInt8)) : Prop where
  statements : ∀ k, e.statement k = none
  publisher : Answers e s p.src
  subscribers : ∀ f ∈ p.subpackets, f.length ≠ 0 → ∀ c ∈ s.subscriberRegister f.dataID,
    Answers e s c ∧ 30 + 8 * (f.row.toNat * f.col.toNat) ≤ 65507
  room : ∀ id, HasRoom s id (p.subpackets.map fun f => f.row.toNat).sum

/-- The server as it stands before the subframes `fs`, behind subframes of the ids `before`. -/
structure Since (s : Server) (p : ServicePacket (Slice UInt8)) (before : List UInt16)
    (fs : List (SubPacket (Slice UInt8))) (t : Server) : Prop where
  tables : t.world.tables = s.world.tables
  addr : t.allClientAddr = s.allClientAddr
  subscribers : t.subscriberRegister = s.subscriberRegister
  registered : ∀ id, p.src ∈ t.publisherRegister id ↔
    p.src ∈ s.publisherRegister id ∨ id ∈ before
  channels : ∀ id, t.handler.dataBuffer id = none ↔ s.handler.dataBuffer id = none
  room : ∀ id, HasRoom t id (fs.map fun f => f.row.toNat).sum

/-- What a subframe adds: at most its rows as records, and its client as publisher of its id. -/
structure Added.Of (x : Added) (p : ServicePacket (Slice UInt8)) (f : SubPacket (Slice UInt8))
    (t : Server) : Prop where
  records : ∀ id, (x.records id).length ≤ f.row.toNat
  clients : ∀ id, p.src ∈ x.clients id → id = f.dataID
  registered : p.src ∈ t.publisherRegister f.dataID ∨ p.src ∈ x.clients f.dataID

section Rounds
variable {e : Env} {s t : Server} {p : ServicePacket (Slice UInt8)} {raw : Slice Float64}
  {before : List UInt16} {f : SubPacket (Slice UInt8)} {fs : List (SubPacket (Slice UInt8))}

/-- Where all statements are answered the last time depends on the table only. -/
theorem queryLastSynt_congr (hdb : ∀ k, e.statement k = none) (id : UInt16)
    (htab : t.world.tables = s.world.tables) :
    (t.queryLastSynt e id).1 = (s.queryLastSynt e id).1 := by
  simp only [Server.queryLastSynt, DRDS.queryLastSynt, World.select, hdb, htab]
  cases s.world.tables id with
  | none => rfl
  | some table => simp

theorem Since.step {x : Added} {u : Server} (h : Since s p before (f :: fs) t) (hadds : Adds x t u)
    (hof : x.Of p f t) : Since s p (before ++ [f.dataID]) fs u where
  tables := hadds.tables.trans h.tables
  addr := hadds.addr.trans h.addr
  subscribers := hadds.subscribers.trans h.subscribers
  registered id := by
    rw [hadds.clients id, List.mem_append, h.registered id, List.mem_append, List.mem_singleton,
      or_assoc]
    constructor
    · rintro (hs | hb | hx)
      · exact .inl hs
      · exact .inr (.inl hb)
      · exact .inr (.inr (hof.clients id hx))
    · rintro (hs | hb | rfl)
      · exact .inl hs
      · exact .inr (.inl hb)
      · rcases hof.registered with ht | hx
        · rw [h.registered] at ht
          exact ht.elim .inl fun hb => .inr (.inl hb)
        · exact .inr (.inr hx)
  channels id := by rw [hadds.records id, Option.map_eq_none_iff, h.channels id]
  room id := by
    have hroom := h.room id
    rw [List.map_cons, List.sum_cons] at hroom
    exact hroom.of_adds hadds (hof.records id)

theorem Since.heard_iff (hdb : ∀ k, e.statement k = none) (h : Since s p before fs t) :
    Heard e s p before f ↔ p.src ∈ t.publisherRegister f.dataID ∧
      ¬ subframeTime p f < (t.queryLastSynt e f.dataID).1 := by
  rw [Heard, h.registered, queryLastSynt_congr hdb _ h.tables, UInt32.not_lt]

theorem publish_adds_of_new (raw : Slice Float64) {id : UInt16} {dst : UInt8} (rows cols : UInt8)
    (synt physicalTime : UInt32) (hanswers : Answers e t dst)
    (hnew : dst ∉ t.publisherRegister id) :
    ∃ u d, t.publish e id dst rows cols synt physicalTime raw = (.returned none, u) ∧
      Adds ⟨fun _ => [], fun i => if i = id then [dst] else [], [d]⟩ t u := by
  let t' : Server := { t with publisherRegister := addClient t.publisherRegister id dst }
  have hanswers' : Answers e t' dst := hanswers
  obtain ⟨u, d, hsend, hadds⟩ := sendOpt_adds Utils.priorityHight synt Utils.serResponse
    Utils.flagSingle Utils.reserved Utils.reserved hanswers'
  have hclient : Adds { Added.nothing with clients := fun i => if i = id then [dst] else [] } t t' := by
    refine ⟨fun i => by simp [t', Added.nothing], fun i => ?_, (List.append_nil _).symm, rfl, rfl, rfl⟩
    change addClient t.publisherRegister id dst i = _
    rw [addClient_apply]
    dsimp only
    split_ifs with hi
    · rw [hi]
    · exact (List.append_nil _).symm
  refine ⟨u, d, ?_, ?_⟩
  · have htest : t.isPublisherRegistered id dst = false := by
      rw [isPublisherRegistered, ← Bool.not_eq_true, Utils.uint8Contains_iff]
      exact hnew
    simp only [publish, htest, publishFrom, Bool.false_eq_true, if_false]
    rw [hsend]
  · have hall := hclient.trans hadds
    simpa [Added.append, Added.nothing, Added.onlyDatagrams] using hall

theorem queryLastSynt_adds (e : Env) (id : UInt16) (t : Server) :
    Adds .nothing t (t.queryLastSynt e id).2 := by
  have htab := congrArg World.tables (queryLastSynt_world e id t.world)
  have hsent := congrArg World.sent (queryLastSynt_world e id t.world)
  exact .of_same rfl rfl hsent htab rfl rfl

theorem publish_adds_of_late (raw : Slice Float64) {id : UInt16} {dst : UInt8} (rows cols : UInt8)
    {synt : UInt32} (physicalTime : UInt32) (hanswers : Answers e t dst)
    (hreg : dst ∈ t.publisherRegister id) (hlate : synt < (t.queryLastSynt e id).1) :
    ∃ u d, t.publish e id dst rows cols synt physicalTime raw =
        (.returned (some "published data are not synchronized with current database"), u) ∧
      Adds (.onlyDatagrams [d]) t u := by
  have hquery := queryLastSynt_adds e id t
  obtain ⟨u, d, hsend, hadds⟩ := sendOpt_adds Utils.priorityHight synt Utils.serResponse
    Utils.flagError Utils.reserved Utils.reserved (hanswers.of_adds hquery)
  have htest : t.isPublisherRegistered id dst = true := (Utils.uint8Contains_iff _ _).mpr hreg
  refine ⟨u, d, ?_, hquery.trans_of_nothing hadds⟩
  simp only [publish, htest, publishFrom, if_true, if_pos hlate]
  rw [hsend]

theorem publish_of_heard {id : UInt16} {dst : UInt8} (rows cols : UInt8) {synt : UInt32}
    (physicalTime : UInt32) (hreg : dst ∈ t.publisherRegister id)
    (hheard : ¬ synt < (t.queryLastSynt e id).1) :
    t.publish e id dst rows cols synt physicalTime raw =
      publishRows id synt physicalTime raw cols.toNat (List.range rows.toNat)
        (t.queryLastSynt e id).2 := by
  have htest : t.isPublisherRegistered id dst = true := (Utils.uint8Contains_iff _ _).mpr hreg
  simp only [publish, htest, publishFrom, if_true, if_neg hheard]

theorem publish_adds_of_heard {id : UInt16} {dst rows cols : UInt8} {synt : UInt32}
    (physicalTime : UInt32) (hreg : dst ∈ t.publisherRegister id)
    (hheard : ¬ synt < (t.queryLastSynt e id).1) (hin : rows.toNat * cols.toNat ≤ raw.cap)
    (hroom : HasRoom t id (List.range rows.toNat).length) :
    ∃ u records, t.publish e id dst rows cols synt physicalTime raw = (.returned none, u) ∧
      Adds (.onlyRecords id records) t u ∧ records.length = rows.toNat := by
  have hroom' : HasRoom (t.queryLastSynt e id).2 id (List.range rows.toNat).length := hroom
  obtain ⟨u, records, hrun, hadds, hlen⟩ := publishRows_adds synt physicalTime
    ((range_inside_iff rows).mpr hin) hroom'
  rw [List.length_range] at hlen
  exact ⟨u, records, (publish_of_heard _ _ _ hreg hheard).trans hrun,
    (queryLastSynt_adds e id t).trans_of_nothing hadds, hlen⟩

theorem Since.room_head (h : Since s p before (f :: fs) t) (id : UInt16) :
    HasRoom t id (List.range f.row.toNat).length := by
  intro queue hqueue
  have hroom := h.room id queue hqueue
  rw [List.map_cons, List.sum_cons] at hroom
  rw [List.length_range]
  omega

/-- The goroutine of a subframe whose rows it can slice. -/
theorem publish_adds (raw : Slice Float64) (hok : PublishSucceeds e s p) (h : Since s p before (f :: fs) t)
    (hin : Heard e s p before f → f.row.toNat * f.col.toNat ≤ raw.cap) :
    ∃ err u x, t.publish e f.dataID p.src f.row f.col (subframeTime p f) p.physicalTime raw =
        (.returned err, u) ∧ Adds x t u ∧ x.Of p f t ∧
      (x.Unseen t ↔ Heard e s p before f ∧
        (f.row = 0 ∨ t.handler.dataBuffer f.dataID = none)) := by
  rw [h.heard_iff hok.statements] at hin ⊢
  have hanswers : Answers e t p.src := by
    obtain ⟨addr, haddr, hnet⟩ := hok.publisher
    exact ⟨addr, h.addr ▸ haddr, hnet⟩
  by_cases hreg : p.src ∈ t.publisherRegister f.dataID
  · by_cases hlate : subframeTime p f < (t.queryLastSynt e f.dataID).1
    · obtain ⟨u, d, hrun, hadds⟩ := publish_adds_of_late raw f.row f.col
        p.physicalTime hanswers hreg hlate
      refine ⟨_, u, _, hrun, hadds, ⟨fun id => by simp [Added.onlyDatagrams, Added.nothing],
        fun id hx => by simp [Added.onlyDatagrams, Added.nothing] at hx, .inl hreg⟩, ?_⟩
      constructor
      · intro hx
        have hsent := hx.datagrams
        simp [Added.onlyDatagrams] at hsent
      · rintro ⟨⟨_, hnot⟩, _⟩
        exact absurd hlate hnot
    · obtain ⟨u, records, hrun, hadds, hlen⟩ := publish_adds_of_heard p.physicalTime hreg hlate
        (hin ⟨hreg, hlate⟩) (h.room_head f.dataID)
      have hrow : records = [] ↔ f.row = 0 := by
        rw [← List.length_eq_zero_iff, hlen, ← UInt8.toNat_inj]
        rfl
      refine ⟨none, u, _, hrun, hadds, ⟨fun id => ?_, ?_, .inl hreg⟩, ?_⟩
      · exact (Added.length_onlyRecords_le _ _ id).trans hlen.le
      · intro id hx
        simp [Added.onlyRecords, Added.nothing] at hx
      · rw [Added.onlyRecords_unseen_iff, hrow]
        exact (and_iff_right ⟨hreg, hlate⟩).symm
  · obtain ⟨u, d, hrun, hadds⟩ := publish_adds_of_new raw f.row f.col (subframeTime p f)
      p.physicalTime hanswers hreg
    refine ⟨none, u, _, hrun, hadds, ⟨fun id => by simp, fun id hx => ?_, .inr (by simp)⟩, ?_⟩
    · dsimp only at hx
      split_ifs at hx with hi
      · exact hi
      · cases hx
    · constructor
      · intro hx
        have hsent := hx.datagrams
        simp at hsent
      · rintro ⟨⟨hyes, _⟩, _⟩
        exact absurd hyes hreg

theorem Added.unseen_append_iff {x : Added} {ds : List (Addr × List UInt8)} :
    (x.append (.onlyDatagrams ds)).Unseen t ↔ x.Unseen t ∧ ds = [] := by
  constructor
  · intro h
    exact ⟨h.left, (List.append_eq_nil_iff.mp h.datagrams).2⟩
  · rintro ⟨hx, rfl⟩
    refine ⟨fun id hid => ?_, fun id => ?_, ?_⟩
    · exact List.append_eq_nil_iff.mpr ⟨hx.records id hid, rfl⟩
    · exact List.append_eq_nil_iff.mpr ⟨hx.clients id, rfl⟩
    · exact List.append_eq_nil_iff.mpr ⟨hx.datagrams, rfl⟩

theorem Added.Of.append {x : Added} (h : x.Of p f t) (ds : List (Addr × List UInt8)) :
    (x.append (.onlyDatagrams ds)).Of p f t := by
  have hrec : ∀ id, (x.append (.onlyDatagrams ds)).records id = x.records id := fun id =>
    List.append_nil _
  have hcl : ∀ id, (x.append (.onlyDatagrams ds)).clients id = x.clients id := fun id =>
    List.append_nil _
  refine ⟨fun id => ?_, fun id => ?_, ?_⟩
  · rw [hrec]
    exact h.records id
  · rw [hcl]
    exact h.clients id
  · rw [hcl]
    exact h.registered

theorem forward?_adds {u : Server} (hok : PublishSucceeds e s p) (hf : f ∈ p.subpackets)
    (hlength : f.length ≠ 0) (hregister : t.subscriberRegister = s.subscriberRegister)
    (haddr : u.allClientAddr = s.allClientAddr)
    (hin : s.subscriberRegister f.dataID ≠ [] → f.row.toNat * f.col.toNat ≤ raw.cap) :
    ∃ rs v ds, t.forward? p f raw = some rs ∧ runRoutines e rs u = (.returned none, v) ∧
      Adds (.onlyDatagrams ds) u v ∧ (ds = [] ↔ s.subscriberRegister f.dataID = []) := by
  by_cases hsubs : s.subscriberRegister f.dataID = []
  · refine ⟨[], u, [], ?_, rfl, .refl u, by simp [hsubs]⟩
    rw [forward?, hregister, hsubs]
    rfl
  · obtain ⟨mat, hmat⟩ := Option.isSome_iff_exists.mp (rowsOf?_isSome.mpr (hin hsubs))
    have hclients := hok.subscribers f hf hlength
    have hfit : 30 + 8 * mat.flatten.length ≤ 65507 := by
      obtain ⟨hlen, hrect⟩ := rowsOf?_some hmat
      obtain ⟨c, hc⟩ := List.exists_mem_of_ne_nil _ hsubs
      rw [length_flatten_of_rectangular hrect, hlen]
      exact (hclients c hc).2
    have hanswers : ∀ c ∈ s.subscriberRegister f.dataID, Answers e u c := by
      intro c hc
      obtain ⟨addr, hclient, hnet⟩ := (hclients c hc).1
      exact ⟨addr, haddr ▸ hclient, hnet⟩
    obtain ⟨v, ds, hv, hsent, hcount⟩ := forwards_adds p.priority p.simulinkTime p.flag
      f.dataID hanswers hfit
    refine ⟨_, v, ds, ?_, hv, hsent, ?_⟩
    · rw [forward?, hregister, hmat]
      exact List.mapM_pure
    · rw [← List.length_eq_zero_iff, hcount, List.length_eq_zero_iff]

/-- A round that does not crash, with the goroutines it starts. -/
theorem publishRound_runs (hok : PublishSucceeds e s p) (h : Since s p before (f :: fs) t)
    (hf : f ∈ p.subpackets) (hcrash : ¬ Crashes e s p raw before f) :
    ∃ u x, runRoutines e (publishRound t p raw f).1 t = (.returned none, u) ∧
      (publishRound t p raw f).2 = (if f.length = 0 then some (.returned none) else none) ∧
      Adds x t u ∧ x.Of p f t ∧ (x.Unseen t ↔ Idle e s p raw before f) := by
  have hin : Heard e s p before f → f.row.toNat * f.col.toNat ≤ raw.cap := fun hheard =>
    not_lt.mp fun hlt => hcrash ⟨hlt, .inl hheard⟩
  obtain ⟨err, u, x, hrun, hadds, hof, hunseen⟩ := publish_adds raw hok h hin
  have hstore : (Routine.publish f.dataID p.src f.row f.col (p.simulinkTime + f.timeDiff.toUInt32)
      p.physicalTime raw).run e t = (.returned err, u) := hrun
  have hrecords : x.Unseen t ↔ Heard e s p before f ∧ (f.row = 0 ∨
      s.handler.dataBuffer f.dataID = none ∧ f.row.toNat * f.col.toNat ≤ raw.cap) := by
    rw [hunseen, h.channels]
    constructor
    · rintro ⟨hheard, hrow⟩
      exact ⟨hheard, hrow.imp id fun hnone => ⟨hnone, hin hheard⟩⟩
    · rintro ⟨hheard, hrow⟩
      exact ⟨hheard, hrow.imp id And.left⟩
  unfold Idle
  by_cases hlength : f.length = 0
  · refine ⟨u, x, ?_, ?_, hadds, hof, ?_⟩
    · simp only [publishRound, hlength, if_true, runRoutines, hstore]
    · simp only [publishRound, hlength, if_true]
    · rw [hrecords]
      simp [hlength]
  · have hrows : s.subscriberRegister f.dataID ≠ [] → f.row.toNat * f.col.toNat ≤ raw.cap :=
      fun hsubs => not_lt.mp fun hlt => hcrash ⟨hlt, .inr ⟨hlength, hsubs⟩⟩
    obtain ⟨rs, v, ds, hrs, hv, hsent, hds⟩ :=
      forward?_adds hok hf hlength h.subscribers (hadds.addr.trans h.addr) hrows
    refine ⟨v, x.append (.onlyDatagrams ds), ?_, ?_, hadds.trans hsent, hof.append ds, ?_⟩
    · simp only [publishRound, hlength, if_false, hrs, runRoutines, hstore, hv]
    · simp only [publishRound, hlength, if_false, hrs]
    · rw [Added.unseen_append_iff, hrecords, hds]
      simp [hlength, and_assoc]

/-- A round that crashes, whatever stands behind it. -/
theorem publishRound_crashes (hok : PublishSucceeds e s p) (h : Since s p before (f :: fs) t)
    (hcrash : Crashes e s p raw before f) :
    ∃ u, ∀ fs', handledLoop e (publishRound t p raw) (f :: fs') t = (.panicked, u) := by
  obtain ⟨hlt, hwhy⟩ := hcrash
  by_cases hheard : Heard e s p before f
  · obtain ⟨hreg, htime⟩ := (h.heard_iff hok.statements).mp hheard
    have hout : ∃ r ∈ List.range f.row.toNat, raw.cap < (r + 1) * f.col.toNat := by
      by_contra hnone
      have hall : ∀ r ∈ List.range f.row.toNat, (r + 1) * f.col.toNat ≤ raw.cap := fun r hr =>
        not_lt.mp fun hr' => hnone ⟨r, hr, hr'⟩
      exact absurd ((range_inside_iff f.row).mp hall) (not_le.mpr hlt)
    obtain ⟨u, hpanic⟩ := publishRows_panics (s := (t.queryLastSynt e f.dataID).2)
      (subframeTime p f) p.physicalTime hout (h.room_head f.dataID)
    have hstore : (Routine.publish f.dataID p.src f.row f.col
        (p.simulinkTime + f.timeDiff.toUInt32) p.physicalTime raw).run e t = (.panicked, u) :=
      (publish_of_heard _ _ _ hreg htime).trans hpanic
    refine ⟨u, fun fs' => ?_⟩
    obtain ⟨rs, o, hround⟩ : ∃ rs o, publishRound t p raw f = (.publish f.dataID p.src f.row f.col
        (p.simulinkTime + f.timeDiff.toUInt32) p.physicalTime raw :: rs, o) := by
      unfold publishRound
      dsimp only
      split_ifs
      · exact ⟨_, _, rfl⟩
      · split <;> exact ⟨_, _, rfl⟩
    cases o with
    | none => rw [handledLoop_cons_of_none hround, runRoutines, hstore]
    | some o => rw [handledLoop_cons_of_some hround, runRoutines, hstore]
  · obtain ⟨hlength, hsubs⟩ := hwhy.resolve_left hheard
    obtain ⟨err, u, x, hrun, _⟩ := publish_adds raw hok h fun hyes => absurd hyes hheard
    have hstore : (Routine.publish f.dataID p.src f.row f.col
        (p.simulinkTime + f.timeDiff.toUInt32) p.physicalTime raw).run e t = (.returned err, u) :=
      hrun
    have hforward : t.forward? p f raw = none := by
      rw [← Option.not_isSome_iff_eq_none, forward?_isSome, h.subscribers]
      rintro (hnil | hle)
      · exact hsubs hnil
      · omega
    have hround : publishRound t p raw f = ([.publish f.dataID p.src f.row f.col
        (p.simulinkTime + f.timeDiff.toUInt32) p.physicalTime raw], some .panicked) := by
      simp only [publishRound, hlength, if_false, hforward]
    refine ⟨u, fun fs' => ?_⟩
    rw [handledLoop_cons_of_some hround, runRoutines, hstore]
    rfl

/-! ### The subframes of a packet -/

variable {g : Slice.Growth}

theorem handled_single_publish (hpub : p.service = Utils.serPublish)
    (hraw : payloadBuf2Float? g p.payload = some raw) (f : SubPacket (Slice UInt8)) (t : Server) :
    handled g e (p.single f) t = handledLoop e (publishRound t p raw) [f] t :=
  handled_publish (p := p.single f) hpub hraw

theorem handled_single_cases (hpub : p.service = Utils.serPublish)
    (hraw : payloadBuf2Float? g p.payload = some raw) (hok : PublishSucceeds e s p)
    (h : Since s p before (f :: fs) t) (hf : f ∈ p.subpackets) :
    (Crashes e s p raw before f ∧ ∃ u, handleEach g e p (f :: fs) t = (.panicked, u) ∧
      handledLoop e (publishRound t p raw) (f :: fs) t = (.panicked, u)) ∨
    (¬ Crashes e s p raw before f ∧ ∃ u x, handleEach g e p (f :: fs) t = handleEach g e p fs u ∧
      handledLoop e (publishRound t p raw) (f :: fs) t =
        (if f.length = 0 then (.returned none, u) else handledLoop e (publishRound u p raw) fs u) ∧
      Adds x t u ∧ Since s p (before ++ [f.dataID]) fs u ∧
      (x.Unseen t ↔ Idle e s p raw before f)) := by
  by_cases hcrash : Crashes e s p raw before f
  · left
    obtain ⟨u, hpanic⟩ := publishRound_crashes hok h hcrash
    have hone := (handled_single_publish (e := e) hpub hraw f t).trans (hpanic [])
    refine ⟨hcrash, u, ?_, hpanic fs⟩
    rw [handleEach_cons_of_ne (by rw [hone]; simp), hone]
  · right
    obtain ⟨u, x, hrun, hend, hadds, hof, hunseen⟩ := publishRound_runs hok h hf hcrash
    rcases hround : publishRound t p raw f with ⟨rs, o⟩
    rw [hround] at hrun hend
    dsimp only at hrun hend
    have hone : handled g e (p.single f) t = (.returned none, u) := by
      rw [handled_single_publish hpub hraw]
      split_ifs at hend with hlength
      · subst hend
        rw [handledLoop_cons_of_some hround, hrun]
      · subst hend
        rw [handledLoop_cons_of_none hround, hrun]
        rfl
    refine ⟨hcrash, u, x, handleEach_cons_of_nil hone, ?_, hadds, h.step hadds hof, hunseen⟩
    rw [publishRound_congr hadds.subscribers]
    split_ifs at hend ⊢ with hlength
    · subst hend
      rw [handledLoop_cons_of_some hround, hrun]
    · subst hend
      rw [handledLoop_cons_of_none hround, hrun]

theorem handleEach_adds (hpub : p.service = Utils.serPublish)
    (hraw : payloadBuf2Float? g p.payload = some raw) (hok : PublishSucceeds e s p)
    (hfs : fs ⊆ p.subpackets) (h : Since s p before fs t) :
    (∃ u, handleEach g e p fs t = (.panicked, u)) ∨
      ∃ u x, handleEach g e p fs t = (.returned none, u) ∧ Adds x t u := by
  induction fs generalizing before t with
  | nil => exact .inr ⟨t, .nothing, rfl, .refl t⟩
  | cons f fs ih =>
    rw [List.cons_subset] at hfs
    rcases handled_single_cases hpub hraw hok h hfs.1 with
      ⟨_, u, heach, _⟩ | ⟨_, u, x, heach, _, hadds, hsince, _⟩
    · exact .inl ⟨u, heach⟩
    · rw [heach]
      rcases ih hfs.2 hsince with ⟨v, hv⟩ | ⟨v, y, hv, hy⟩
      · exact .inl ⟨v, hv⟩
      · exact .inr ⟨v, _, hv, hadds.trans hy⟩

theorem Idle.not_crashes (h : Idle e s p raw before f) : ¬ Crashes e s p raw before f := by
  rintro ⟨hlt, _⟩
  rcases h.2.1 with hrow | ⟨_, hle⟩
  · simp [hrow] at hlt
  · omega

theorem Idle.behind_iff (hidle : Idle e s p raw before f) (k : SubPacket (Slice UInt8)) :
    Idle e s p raw (before ++ [f.dataID]) k ↔ Idle e s p raw before k := by
  have hheard : Heard e s p (before ++ [f.dataID]) k ↔ Heard e s p before k := by
    unfold Heard
    rw [List.mem_append, List.mem_singleton]
    constructor
    · rintro ⟨hs | hb | hk, htime⟩
      · exact ⟨.inl hs, htime⟩
      · exact ⟨.inr hb, htime⟩
      · exact ⟨by rw [hk]; exact hidle.1.1, htime⟩
    · rintro ⟨hreg, htime⟩
      exact ⟨hreg.imp id .inl, htime⟩
  unfold Idle
  rw [hheard]

/-- Subframes in packets of their own lead to nothing exactly when all are idle. -/
theorem handleEach_sameEffect_iff (hpub : p.service = Utils.serPublish)
    (hraw : payloadBuf2Float? g p.payload = some raw) (hok : PublishSucceeds e s p)
    (hfs : fs ⊆ p.subpackets) (h : Since s p before fs t) :
    SameEffect (.returned none, t) (handleEach g e p fs t) ↔
      ∀ f ∈ fs, Idle e s p raw before f := by
  induction fs generalizing before t with
  | nil => simpa [handleEach] using SameEffect.refl (.returned none, t)
  | cons f fs ih =>
    rw [List.cons_subset] at hfs
    rw [List.forall_mem_cons]
    rcases handled_single_cases hpub hraw hok h hfs.1 with
      ⟨hcrash, u, heach, _⟩ | ⟨hcrash, u, x, heach, _, hadds, hsince, hunseen⟩
    · rw [heach]
      constructor
      · intro hsame
        exact absurd hsame.outcome (by simp)
      · rintro ⟨hidle, _⟩
        exact absurd hcrash hidle.not_crashes
    · rw [heach]
      by_cases hidle : Idle e s p raw before f
      · have hsame : SameEffect (.returned none, t) (.returned none, u) :=
          (sameEffect_iff_unseen hadds).mpr (hunseen.mpr hidle)
        have hrest := ih hfs.2 hsince
        simp only [hidle.behind_iff] at hrest
        rw [← hrest]
        exact ⟨fun hall => ⟨hidle, hsame.symm.trans hall⟩, fun hall => hsame.trans hall.2⟩
      · simp only [hidle, false_and, iff_false]
        intro hsame
        rcases handleEach_adds hpub hraw hok hfs.2 hsince with ⟨v, hv⟩ | ⟨v, y, hv, hy⟩
        · rw [hv] at hsame
          exact absurd hsame.outcome (by simp)
        · rw [hv] at hsame
          have hall := (sameEffect_iff_unseen (hadds.trans hy)).mp hsame
          exact hidle (hunseen.mp hall.left)

theorem handledLoop_sameEffect_iff (hpub : p.service = Utils.serPublish)
    (hraw : payloadBuf2Float? g p.payload = some raw) (hok : PublishSucceeds e s p)
    (hfs : fs ⊆ p.subpackets) (h : Since s p before fs t) :
    SameEffect (handledLoop e (publishRound t p raw) fs t) (handleEach g e p fs t) ↔
      Sums e s p raw before fs := by
  induction fs generalizing before t with
  | nil => exact ⟨fun _ => trivial, fun _ => .refl _⟩
  | cons f fs ih =>
    rw [List.cons_subset] at hfs
    rw [Sums]
    rcases handled_single_cases hpub hraw hok h hfs.1 with
      ⟨hcrash, u, heach, hloop⟩ | ⟨hcrash, u, x, heach, hloop, hadds, hsince, hunseen⟩
    · rw [heach, hloop]
      exact ⟨fun _ => .inl hcrash, fun _ => .refl _⟩
    · rw [heach, hloop]
      simp only [hcrash, false_or]
      split_ifs
      · exact handleEach_sameEffect_iff hpub hraw hok hfs.2 hsince
      · exact ih hfs.2 hsince

end Rounds

/-- Handling a packet has the effect of handling a packet for each of its subframes. -/
def SumOfSubframes (g : Slice.Growth) (e : Env) (p : ServicePacket (Slice UInt8)) (s : Server) :
    Prop := SameEffect (handled g e p s) (handleEach g e p p.subpackets s)

/-- The loop of a `SER_PUBLISH` packet leaves nothing out. -/
def PublishSums (g : Slice.Growth) (e : Env) (p : ServicePacket (Slice UInt8)) (s : Server) : Prop :=
  match payloadBuf2Float? g p.payload with
  | none => p.subpackets ≠ []
  | some raw => Sums e s p raw [] p.subpackets

theorem sumOfSubframes_publish_iff {g : Slice.Growth} {e : Env} {p : ServicePacket (Slice UInt8)}
    {s : Server} (hpub : p.service = Utils.serPublish) (hok : PublishSucceeds e s p) :
    SumOfSubframes g e p s ↔ PublishSums g e p s := by
  unfold SumOfSubframes PublishSums
  cases hraw : payloadBuf2Float? g p.payload with
  | none =>
    have hpanic : ∀ q : ServicePacket (Slice UInt8), q.service = Utils.serPublish →
        q.payload = p.payload → handled g e q s = (.panicked, s) := by
      intro q hq hpay
      have hp := handlePkt_publish_of_none (g := g) (e := e) (s := s) hq (hpay ▸ hraw)
      rw [handled_of_spawned_nil (congrArg Handled.spawned hp), hp]
    rw [hpanic p hpub rfl]
    cases hfs : p.subpackets with
    | nil =>
      simp only [ne_eq, not_true_eq_false, iff_false]
      intro hsame
      exact absurd hsame.outcome (by simp [handleEach])
    | cons f fs =>
      have hone := hpanic (p.single f) hpub rfl
      rw [handleEach_cons_of_ne (by rw [hone]; simp), hone]
      simpa using SameEffect.refl (.panicked, s)
  | some raw =>
    rw [handled_publish hpub hraw]
    refine handledLoop_sameEffect_iff hpub hraw hok (List.Subset.refl _) ?_
    exact ⟨rfl, rfl, rfl, fun id => by simp, fun id => Iff.rfl, hok.room⟩

/-- Handling a packet whose calls succeed has the effect of handling a packet for each of its
subframes, but for `SER_PUBLISH`: that loop returns at the first empty subframe, and what stands
behind must lead to nothing. -/
theorem sumOfSubframes_iff (g : Slice.Growth) (e : Env) (p : ServicePacket (Slice UInt8))
    (s : Server)
    (hok : p.service = Utils.serRequest ∨ p.service = Utils.serSubscribe →
      ErrorFree g e p p.subpackets s)
    (hpublish : p.service = Utils.serPublish → PublishSucceeds e s p) :
    SumOfSubframes g e p s ↔ (p.service = Utils.serPublish → PublishSums g e p s) := by
  by_cases hpub : p.service = Utils.serPublish
  · rw [sumOfSubframes_publish_iff hpub (hpublish hpub)]
    exact ⟨fun h _ => h, fun h => h hpub⟩
  · simp only [hpub, false_implies, iff_true]
    have heq : handled g e p s = handleEach g e p p.subpackets s := by
      by_cases hsend : p.service = Utils.serSend
      · rw [handled_send hsend]
        exact handled_send_eq_handleEach hsend p.subpackets s
      by_cases hreq : p.service = Utils.serRequest
      · rw [handled_request hreq]
        exact callLoop_eq_handleEach (fun f s => handled_request (p := p.single f) hreq) (hok (.inl hreq))
      by_cases hsub : p.service = Utils.serSubscribe
      · rw [handled_subscribe hsub]
        exact callLoop_eq_handleEach (fun f s => handled_subscribe (p := p.single f) hsub) (hok (.inr hsub))
      have hother : ∀ q : ServicePacket (Slice UInt8), q.service = p.service →
          handled g e q s = (.returned none, s) := by
        intro q hq
        have hp : handlePkt g e q s = ⟨.returned none, [], s⟩ := by
          rw [handlePkt, hq, if_neg hsend, if_neg hreq, if_neg hpub, if_neg hsub]
        rw [handled_of_spawned_nil (congrArg Handled.spawned hp), hp]
      have heach : ∀ fs : List (SubPacket (Slice UInt8)),
          handleEach g e p fs s = (.returned none, s) := by
        intro fs
        induction fs with
        | nil => rfl
        | cons f fs ih => rw [handleEach_cons_of_nil (hother (p.single f) rfl), ih]
      rw [hother p rfl, heach]
    rw [SumOfSubframes, heq]
    exact .refl _

/-- Client 2 registers for data id 3 and brings one value for it, in one packet. -/
def registerAndPublish : ServicePacket (Slice UInt8) :=
  clientPacket Utils.serPublish [⟨3, 0, 0, 0, 0, .ofList []⟩, ⟨3, 0, 1, 1, 1, .ofList []⟩]
    (.ofList [0, 0, 0, 0, 0, 0, 0xf0, 0x3f])

/-- The value is enqueued only when it comes in a packet of its own. -/
theorem registerAndPublish_not_sum :
    ¬ SumOfSubframes .tight .reliable registerAndPublish afterInit := by
  intro hsum
  have hrecords := congrFun hsum.records 3
  revert hrecords
  decide +kernel

theorem registerAndPublish_succeeds : PublishSucceeds .reliable afterInit registerAndPublish where
  statements _ := rfl
  publisher := ⟨⟨0x7f000001, 20001⟩, by decide +kernel, fun k =>
    ⟨rfl, fun buf hbuf => by simp [Env.reliable, hbuf]⟩⟩
  subscribers f _ _ c hc := by simp [afterInit] at hc
  room id queue hqueue := by
    simp only [afterInit] at hqueue
    split_ifs at hqueue
    cases hqueue
    decide

theorem sumOfSubframes_subscribe_publish :
    (SumOfSubframes .tight .reliable subscribePacket afterInit ↔
      (subscribePacket.service = Utils.serPublish →
        PublishSums .tight .reliable subscribePacket afterInit)) ∧
    (SumOfSubframes .tight .reliable registerAndPublish afterInit ↔
      (registerAndPublish.service = Utils.serPublish →
        PublishSums .tight .reliable registerAndPublish afterInit)) := by
  have hok : ErrorFree .tight .reliable subscribePacket subscribePacket.subpackets afterInit := by
    refine ⟨fun err => ?_, fun _ _ => trivial⟩
    have hout : (handled .tight .reliable (subscribePacket.single ⟨3, 1, 0, 0, 0, .ofList []⟩)
      afterInit).1 = .returned none := by decide +kernel
    rw [hout]
    simp
  exact ⟨sumOfSubframes_iff _ _ _ _ (fun _ => hok) (fun h => absurd h (by decide)),
    sumOfSubframes_iff _ _ _ _ (fun h => absurd h (by decide)) fun _ => registerAndPublish_succeeds⟩

end DRDS.Server
