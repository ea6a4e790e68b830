import DRDS.Server.ForwardTime
import DRDS.Server.PublishAtomic
import DRDS.Server.Replies
import DRDS.Server.Requests

/-! Times that are sums: of header time and offset, and of a row. A sum has 32 bits. -/
namespace DRDS.Server
open Go

/-- A sum of 32 bits is the sum of the numbers unless it wraps. -/
theorem toNat_time_iff (synt : UInt32) (timeDiff : UInt16) :
    (synt + timeDiff.toUInt32).toNat = synt.toNat + timeDiff.toNat ↔
      synt.toNat + timeDiff.toNat < 2 ^ 32 := by
  have hsynt := synt.toNat_lt
  have hdiff := timeDiff.toNat_lt
  rw [UInt32.toNat_add, UInt16.toNat_toUInt32]
  omega

theorem toNat_rowTime_iff (synt : UInt32) (timeDiff : UInt16) {row : ℕ} (hrow : row < 256) :
    (synt + timeDiff.toUInt32 + .ofNat row).toNat = synt.toNat + timeDiff.toNat + row ↔
      synt.toNat + timeDiff.toNat + row < 2 ^ 32 := by
  have hsynt := synt.toNat_lt
  have hdiff := timeDiff.toNat_lt
  rw [UInt32.toNat_add, UInt32.toNat_add, UInt16.toNat_toUInt32, UInt32.toNat_ofNat']
  omega

/-! ### Records -/

/-- Run at some later time, the routine enqueues records, and the table takes this one of them. -/
def StoresRow (s : Server) (r : Routine) (id : UInt16) (row : ℕ) (data : Data) : Prop :=
  s.handler.Shaped id data ∧ ∃ e t queue records, SameConfig s t ∧
    t.handler.dataBuffer id = some queue ∧
    (r.run e t).2.handler.dataBuffer id = some (queue ++ records) ∧ records[row]? = some data

theorem no_new_row {queue records : List Data} {row : ℕ} {data : Data}
    (hsame : some queue = some (queue ++ records)) (hrow : records[row]? = some data) : False := by
  rw [Option.some.injEq, List.self_eq_append_right] at hsame
  rw [hsame] at hrow
  cases hrow

theorem not_storesRow {s : Server} {r : Routine} {id : UInt16} {row : ℕ} {data : Data}
    (h : ∀ e t, (r.run e t).2.handler.dataBuffer id = t.handler.dataBuffer id) :
    ¬ StoresRow s r id row data := by
  rintro ⟨_, e, t, queue, records, _, hqueue, hrun, hrow⟩
  exact no_new_row (hqueue.symm.trans ((h e t).symm.trans hrun)) hrow

def emptied (s : Server) (id : UInt16) (dst : UInt8) : Server := { s with
  handler := { s.handler with dataBuffer := Function.update s.handler.dataBuffer id (some []) }
  publisherRegister := fun _ => [dst]
  world := ⟨0, fun _ => none, []⟩ }

theorem sameConfig_emptied {s : Server} {id : UInt16} (dst : UInt8)
    (hchan : (s.handler.dataBuffer id).isSome) : SameConfig s (s.emptied id dst) := by
  refine ⟨rfl, rfl, fun i => ?_⟩
  by_cases hi : i = id
  · subst hi
    simp [emptied, hchan]
  · simp [emptied, hi]

theorem writeToBuffer_cases (id : UInt16) (data : Data) (s : Server) :
    (∃ queue err, s.handler.dataBuffer id = some queue ∧ Utils.buffLen ≤ queue.length ∧
      s.writeToBuffer id data = (some err, s)) ∨
    (s.handler.dataBuffer id = none ∧ s.writeToBuffer id data = (none, s)) ∨
    ∃ queue t, s.handler.dataBuffer id = some queue ∧ queue.length < Utils.buffLen ∧
      s.writeToBuffer id data = (none, t) ∧ t.handler.dataBuffer id = some (queue ++ [data]) ∧
      ∀ i ≠ id, t.handler.dataBuffer i = s.handler.dataBuffer i := by
  unfold writeToBuffer Handler.writeToBuffer
  cases hqueue : s.handler.dataBuffer id with
  | none => exact .inr (.inl ⟨rfl, rfl⟩)
  | some queue =>
    by_cases hfull : Utils.buffLen ≤ queue.length
    · simp only [if_pos hfull]
      exact .inl ⟨queue, _, rfl, hfull, rfl⟩
    · simp only [if_neg hfull]
      refine .inr (.inr ⟨queue, _, rfl, Nat.lt_of_not_le hfull, rfl, Function.update_self .., ?_⟩)
      exact fun i hi => Function.update_of_ne hi ..

section Rows
variable (id : UInt16) (synt physicalTime : UInt32) (rawData : Slice Float64) (col : ℕ)

theorem dataBuffer_publishRows_of_ne (rows : List ℕ) (s : Server) {i : UInt16} (hi : i ≠ id) :
    (publishRows id synt physicalTime rawData col rows s).2.handler.dataBuffer i =
      s.handler.dataBuffer i := by
  induction rows generalizing s with
  | nil => rfl
  | cons row rows ih =>
    rw [publishRows]
    cases rawData.slice? (row * col) ((row + 1) * col) with
    | none => rfl
    | some value =>
      rcases writeToBuffer_cases id ⟨synt + .ofNat row, physicalTime, value.toList⟩ s with
        ⟨_, err, _, _, hwrite⟩ | ⟨_, hwrite⟩ | ⟨_, t, _, _, hwrite, _, hsame⟩
      · simp only [hwrite]
      · simp only [hwrite, ih]
      · simp only [hwrite, ih, hsame i hi]

theorem dataBuffer_publishRows (n row : ℕ) {s : Server} {queue : List Data}
    (hqueue : s.handler.dataBuffer id = some queue) : ∃ m ≤ n,
      (∀ j < m, (row + j + 1) * col ≤ rawData.cap) ∧
      (publishRows id synt physicalTime rawData col (List.range' row n) s).2.handler.dataBuffer id =
        some (queue ++ (List.range' row m).map (rowData synt physicalTime rawData col)) ∧
      (m < n → rawData.cap < (row + m + 1) * col ∨ Utils.buffLen ≤ queue.length + m) := by
  induction n generalizing row s queue with
  | zero => exact ⟨0, Nat.le_refl 0, by simp, by simp [publishRows, hqueue], by simp⟩
  | succ n ih =>
    rw [List.range'_succ, publishRows]
    cases hvalue : rawData.slice? (row * col) ((row + 1) * col) with
    | none =>
      have hout := slice?_row_eq_none.mp hvalue
      exact ⟨0, Nat.zero_le _, by simp, by simp [hqueue], fun _ => .inl hout⟩
    | some value =>
      have hin := (slice?_row row).mp ⟨value, hvalue⟩
      have hdata : rowData synt physicalTime rawData col row =
          ⟨synt + .ofNat row, physicalTime, value.toList⟩ := rowData_of_slice? hvalue
      rcases writeToBuffer_cases id ⟨synt + .ofNat row, physicalTime, value.toList⟩ s with
        ⟨queue', err, hq, hfull, hwrite⟩ | ⟨hnone, _⟩ | ⟨queue', t, hq, _, hwrite, ht, _⟩
      · obtain rfl := Option.some.inj (hqueue.symm.trans hq)
        simp only [hwrite]
        exact ⟨0, Nat.zero_le _, by simp, by simp [hqueue], fun _ => .inr (by simpa using hfull)⟩
      · cases hqueue.symm.trans hnone
      · obtain rfl := Option.some.inj (hqueue.symm.trans hq)
        simp only [hwrite]
        obtain ⟨m, hm, hrows, hbuffer, hends⟩ := ih (row + 1) ht
        refine ⟨m + 1, by omega, ?_, ?_, ?_⟩
        · intro j hj
          cases j with
          | zero => exact hin
          | succ j =>
            have hj' := hrows j (by omega)
            rwa [Nat.add_assoc row 1 j, Nat.add_comm 1 j] at hj'
        · rw [hbuffer, List.range'_succ, List.map_cons, hdata, List.append_assoc,
            List.singleton_append]
        · intro hlt
          rcases hends (by omega) with hout | hfull
          · exact .inl (by rwa [Nat.add_assoc row 1 m, Nat.add_comm 1 m] at hout)
          · rw [List.length_append, List.length_singleton] at hfull
            exact .inr (by omega)

end Rows

section Stored
variable {s : Server} {id : UInt16} {row : ℕ} {data : Data}

theorem storesRow_send {id' : UInt16} {time physicalTime : UInt32} {rawData : List Float64} :
    StoresRow s (.send id' time physicalTime rawData) id row data ↔
      s.handler.Shaped id data ∧ (s.handler.dataBuffer id).isSome ∧ id = id' ∧ row = 0 ∧
        data = ⟨time, physicalTime, rawData⟩ := by
  constructor
  · rintro ⟨hshaped, e, t, queue, records, hsame, hqueue, hrun, hrow⟩
    change ((t.writeToBuffer id' ⟨time, physicalTime, rawData⟩).2).handler.dataBuffer id = _ at hrun
    have hchan : (s.handler.dataBuffer id).isSome := by
      rw [← hsame.channels, hqueue]
      rfl
    rcases writeToBuffer_cases id' ⟨time, physicalTime, rawData⟩ t with
      ⟨_, err, _, _, hwrite⟩ | ⟨_, hwrite⟩ | ⟨queue', u, hq, _, hwrite, hu, hother⟩
    · rw [hwrite, hqueue] at hrun
      exact (no_new_row hrun hrow).elim
    · rw [hwrite, hqueue] at hrun
      exact (no_new_row hrun hrow).elim
    · rw [hwrite] at hrun
      by_cases hid : id = id'
      · subst hid
        obtain rfl := Option.some.inj (hqueue.symm.trans hq)
        rw [hu, Option.some.injEq, List.append_cancel_left_eq] at hrun
        rw [← hrun, List.getElem?_singleton] at hrow
        split_ifs at hrow with hzero
        exact ⟨hshaped, hchan, rfl, hzero, (Option.some.inj hrow).symm⟩
      · rw [hother id hid, hqueue] at hrun
        exact (no_new_row hrun hrow).elim
  · rintro ⟨hshaped, hchan, rfl, rfl, rfl⟩
    refine ⟨hshaped, .reliable, s.emptied id 0, [], [⟨time, physicalTime, rawData⟩],
      sameConfig_emptied 0 hchan, Function.update_self .., ?_, rfl⟩
    simp [emptied, Routine.run, send, writeToBuffer, Handler.writeToBuffer, Utils.buffLen]

theorem not_storesRow_sendPkt {dst priority : UInt8} {synt : UInt32} {flag : UInt8}
    {dataID : UInt16} {mat : List (List Float64)} :
    ¬ StoresRow s (.sendPkt dst priority synt flag dataID mat) id row data := by
  refine not_storesRow fun e t => ?_
  obtain ⟨sequence, world, hrun⟩ := sendPkt_besides e dst priority synt flag dataID mat t
  change (t.sendPkt e dst priority synt flag dataID mat).2.handler.dataBuffer id = _
  rw [hrun]

theorem publish_cases (e : Env) (id : UInt16) (dst rows cols : UInt8) (synt physicalTime : UInt32)
    (rawData : Slice Float64) (s : Server) :
    (s.publish e id dst rows cols synt physicalTime rawData).2.handler = s.handler ∨
      s.publish e id dst rows cols synt physicalTime rawData =
        publishRows id synt physicalTime rawData cols.toNat (List.range rows.toNat)
          (s.queryLastSynt e id).2 := by
  unfold publish publishFrom
  split_ifs
  · dsimp only
    split_ifs
    · left
      obtain ⟨sequence, world, hopt⟩ := sendOpt_besides e dst Utils.priorityHight synt
        Utils.serResponse Utils.flagError Utils.reserved Utils.reserved (s.queryLastSynt e id).2
      rw [hopt]
      rfl
    · exact .inr rfl
  · left
    obtain ⟨sequence, world, hopt⟩ := sendOpt_besides e dst Utils.priorityHight synt
      Utils.serResponse Utils.flagSingle Utils.reserved Utils.reserved
      { s with publisherRegister := addClient s.publisherRegister id dst }
    dsimp only
    rw [hopt]

theorem publish_emptied (id : UInt16) (dst rows cols : UInt8) (synt physicalTime : UInt32)
    (rawData : Slice Float64) (s : Server) :
    (s.emptied id dst).publish .reliable id dst rows cols synt physicalTime rawData =
      publishRows id synt physicalTime rawData cols.toNat (List.range rows.toNat)
        ((s.emptied id dst).queryLastSynt .reliable id).2 := by
  have hreg : (s.emptied id dst).isPublisherRegistered id dst :=
    (Utils.uint8Contains_iff _ _).mpr (by simp [emptied])
  have hintime : ¬ synt < ((s.emptied id dst).queryLastSynt .reliable id).1 := by
    change ¬ synt < 0
    exact UInt32.not_lt_zero
  rw [publish, publishFrom, if_pos hreg]
  dsimp only
  rw [if_neg hintime]

theorem storesRow_publish {id' : UInt16} {dst rows cols : UInt8} {synt physicalTime : UInt32}
    {rawData : Slice Float64} :
    StoresRow s (.publish id' dst rows cols synt physicalTime rawData) id row data ↔
      s.handler.Shaped id data ∧ (s.handler.dataBuffer id).isSome ∧ id = id' ∧
        row < rows.toNat ∧ (row + 1) * cols.toNat ≤ rawData.cap ∧
        data = rowData synt physicalTime rawData cols.toNat row := by
  constructor
  · rintro ⟨hshaped, e, t, queue, records, hsame, hqueue, hrun, hrow⟩
    change (t.publish e id' dst rows cols synt physicalTime rawData).2.handler.dataBuffer id =
      some (queue ++ records) at hrun
    have hchan : (s.handler.dataBuffer id).isSome := by
      rw [← hsame.channels, hqueue]
      rfl
    rcases publish_cases e id' dst rows cols synt physicalTime rawData t with hnone | hrows
    · rw [hnone, hqueue] at hrun
      exact (no_new_row hrun hrow).elim
    · rw [hrows, List.range_eq_range'] at hrun
      by_cases hid : id = id'
      · subst hid
        obtain ⟨m, hm, hin, hbuffer, _⟩ := dataBuffer_publishRows id synt physicalTime rawData
          cols.toNat rows.toNat 0 (s := (t.queryLastSynt e id).2) hqueue
        rw [hbuffer, Option.some.injEq, List.append_cancel_left_eq] at hrun
        rw [← hrun, List.getElem?_map] at hrow
        obtain ⟨j, hj, hdata⟩ := Option.map_eq_some_iff.mp hrow
        obtain ⟨hlt, rfl⟩ := List.getElem?_eq_some_iff.mp hj
        rw [List.length_range'] at hlt
        have hrowIn := hin row hlt
        rw [List.getElem_range', Nat.one_mul, Nat.zero_add] at hdata
        rw [Nat.zero_add] at hrowIn
        exact ⟨hshaped, hchan, rfl, Nat.lt_of_lt_of_le hlt hm, hrowIn, hdata.symm⟩
      · rw [dataBuffer_publishRows_of_ne id' synt physicalTime rawData cols.toNat _ _ hid] at hrun
        exact (no_new_row (hqueue.symm.trans hrun) hrow).elim
  · rintro ⟨hshaped, hchan, rfl, hlt, hin, rfl⟩
    have hqueue : ((s.emptied id dst).queryLastSynt .reliable id).2.handler.dataBuffer id =
        some [] := Function.update_self ..
    obtain ⟨m, hm, hrows, hbuffer, hends⟩ := dataBuffer_publishRows id synt physicalTime rawData
      cols.toNat rows.toNat 0 hqueue
    have hreached : row < m := by
      by_contra hge
      have hrowsLt := rows.toNat_lt
      rcases hends (by omega) with hout | hfull
      · have hmono : (0 + m + 1) * cols.toNat ≤ (row + 1) * cols.toNat :=
          Nat.mul_le_mul_right _ (by omega)
        omega
      · rw [List.length_nil, Utils.buffLen] at hfull
        omega
    refine ⟨hshaped, .reliable, s.emptied id dst, [],
      (List.range' 0 m).map (rowData synt physicalTime rawData cols.toNat),
      sameConfig_emptied dst hchan, Function.update_self .., ?_, ?_⟩
    · change ((s.emptied id dst).publish .reliable id dst rows cols synt physicalTime
        rawData).2.handler.dataBuffer id = _
      rw [publish_emptied, List.range_eq_range', hbuffer]
    · rw [List.getElem?_map, List.getElem?_range' hreached, Option.map_some, Nat.zero_add,
        Nat.one_mul]

end Stored

/-! ### Windows -/

/-- The end of the window `RequestRange` reads. -/
def rangeEnd (e : Env) (id : UInt16) (timeStart : UInt32) (timeDiff : UInt16) (s : Server) :
    UInt32 :=
  if timeDiff = Utils.paramterRequestLast then (s.queryLastSynt e id).1
  else timeStart + timeDiff.toUInt32

theorem rangeEnd_of_ne {e : Env} {id : UInt16} {timeStart : UInt32} {timeDiff : UInt16}
    {s : Server} (h : timeDiff ≠ Utils.paramterRequestLast) :
    s.rangeEnd e id timeStart timeDiff = timeStart + timeDiff.toUInt32 := if_neg h

/-- `RequestRange` sends what it reads up to there. -/
theorem requestRange_reads (e : Env) (id : UInt16) (timeStart : UInt32) (timeDiff : UInt16)
    (dst priority : UInt8) (s : Server) :
    ∃ u, (timeDiff ≠ Utils.paramterRequestLast → u = s) ∧ u.world.sent = s.world.sent ∧
      s.requestRange e id timeStart timeDiff dst priority =
        match s.handler.readRange e id timeStart (s.rangeEnd e id timeStart timeDiff) u.world with
        | (.error err, world) => (some err, { u with world })
        | (.ok (_, _, dataMat), world) =>
          sendPkt e dst Utils.priorityHight timeStart Utils.flagSingle id dataMat
            { u with world } := by
  unfold requestRange rangeEnd
  by_cases hlast : timeDiff = Utils.paramterRequestLast
  · rw [if_pos hlast, if_pos hlast]
    refine ⟨(s.queryLastSynt e id).2, fun h => absurd hlast h, ?_, rfl⟩
    change (DRDS.queryLastSynt e id s.world).2.sent = s.world.sent
    rw [queryLastSynt_world]
    rfl
  · rw [if_neg hlast, if_neg hlast]
    exact ⟨s, fun _ => rfl, rfl, rfl⟩

/-- The reply to a range request goes out, if there is nothing to read. -/
structure RangeGoesOut (e : Env) (s : Server) (id : UInt16) (dst : UInt8) : Prop where
  answered : e.statement s.world.calls = none
  selects : ∃ t, s.world.tables id = some t ∧ s.handler.Selects id t
  reached : Reached e s dst (s.world.calls + 2)

theorem answered_of_readRange {e : Env} {h : Handler} {id : UInt16} {start stop : UInt32} {w : World}
    {vecs : List UInt32 × List UInt64 × List (List Float64)}
    (hread : (h.readRange e id start stop w).1 = .ok vecs) :
    e.statement w.calls = none ∧ ∃ t, w.tables id = some t ∧ h.Selects id t := by
  cases ht : w.tables id with
  | none =>
    unfold Handler.readRange World.select at hread
    rw [ht] at hread
    cases he : e.statement w.calls with
    | none => simp [he] at hread
    | some err => simp [he] at hread
  | some t =>
    rcases h.readRange_answer (e := e) start stop ht with ⟨err, herr, _⟩ | ⟨hanswer, hs, _⟩
    · rw [herr] at hread
      cases hread
    · exact ⟨hanswer, t, rfl, hs⟩

section Window
variable {e : Env} (he : e.IgnoresBytes) {s : Server} {id : UInt16} {timeStart : UInt32}
  {timeDiff : UInt16} {dst priority : UInt8} (hlast : timeDiff ≠ Utils.paramterRequestLast)
include he hlast

theorem requestRange_of_not_goesOut (hno : ¬ RangeGoesOut e s id dst) :
    (s.requestRange e id timeStart timeDiff dst priority).1 ≠ none ∧
      (s.requestRange e id timeStart timeDiff dst priority).2.world.sent = s.world.sent := by
  obtain ⟨u, hu, hsent, hrun⟩ := requestRange_reads e id timeStart timeDiff dst priority s
  obtain rfl := hu hlast
  have hworld := u.handler.readRange_world e id timeStart (u.rangeEnd e id timeStart timeDiff) u.world
  rcases hread : u.handler.readRange e id timeStart (u.rangeEnd e id timeStart timeDiff) u.world with
    ⟨err | ⟨simuVec, phyVec, dataMat⟩, w⟩
  · rw [hread] at hrun hworld
    obtain rfl : w = u.world.tick := hworld
    rw [hrun]
    exact ⟨Option.some_ne_none err, rfl⟩
  · rw [hread] at hrun hworld
    obtain rfl : w = u.world.tick := hworld
    rw [hrun]
    apply sendPkt_of_not_reached he
    intro hreach
    obtain ⟨hanswer, htable⟩ := answered_of_readRange (congrArg Prod.fst hread)
    exact hno ⟨hanswer, htable, hreach⟩

/-- A window that wraps is empty, and its reply is sent all the same. -/
theorem requestRange_of_wrap (hwrap : 2 ^ 32 ≤ timeStart.toNat + timeDiff.toNat)
    (hgoes : RangeGoesOut e s id dst) :
    (s.requestRange e id timeStart timeDiff dst priority).1 = none := by
  obtain ⟨u, hu, hsent, hrun⟩ := requestRange_reads e id timeStart timeDiff dst priority s
  obtain rfl := hu hlast
  obtain ⟨t, ht, hs⟩ := hgoes.selects
  have hend : (u.rangeEnd e id timeStart timeDiff).toNat < timeStart.toNat := by
    have hstart := timeStart.toNat_lt
    have hdiff := timeDiff.toNat_lt
    rw [rangeEnd_of_ne hlast, UInt32.toNat_add, UInt16.toNat_toUInt32]
    omega
  have hempty : t.range timeStart (u.rangeEnd e id timeStart timeDiff) = [] := by
    rw [Table.range, List.filter_eq_nil_iff]
    intro r _
    rw [decide_eq_true_eq, UInt32.le_iff_toNat_le, UInt32.lt_iff_toNat_lt]
    omega
  have hworld := u.handler.readRange_world e id timeStart (u.rangeEnd e id timeStart timeDiff) u.world
  rcases u.handler.readRange_answer (e := e) timeStart (u.rangeEnd e id timeStart timeDiff) ht with
    ⟨err, _, hno⟩ | ⟨_, _, simuVec, phyVec, dataMat, hok, hlen⟩
  · exact absurd ⟨hgoes.answered, hs⟩ hno
  · rw [hempty, List.length_nil] at hlen
    obtain rfl := List.eq_nil_of_length_eq_zero hlen
    have hread : u.handler.readRange e id timeStart (u.rangeEnd e id timeStart timeDiff) u.world =
        (.ok (simuVec, phyVec, []), u.world.tick) := Prod.ext hok hworld
    rw [hrun, hread]
    have hreach : Reached e { u with world := u.world.tick } dst (u.world.tick.calls + 1) :=
      hgoes.reached
    have hfit : 30 + 8 * ([] : List (List Float64)).flatten.length ≤ 65507 := by decide
    obtain ⟨_, _, hnil, _⟩ := sendPkt_of_reached he Utils.priorityHight timeStart Utils.flagSingle id
      hreach hfit
    exact hnil

end Window

/-! ### Packets -/

/-- The calls a request packet leads to, each with the server it finds. -/
def requestCalls (e : Env) (p : ServicePacket (Slice UInt8)) :
    List (SubPacket (Slice UInt8)) → Server → List (SubPacket (Slice UInt8) × Server)
  | [], _ => []
  | f :: fs, s =>
    (f, s) :: match requestCall e p f s with
      | (.returned none, t) => requestCalls e p fs t
      | _ => []

/-- The time of each record that the packet stores, and the end of each window that it reads up to
an offset, is a sum of natural numbers. -/
structure TimesExact (g : Slice.Growth) (e : Env) (s : Server) (p : ServicePacket (Slice UInt8)) :
    Prop where
  send : p.service = Utils.serSend → ∀ f ∈ reached (sendRound g s p) p.subpackets,
    ∀ r ∈ (sendRound g s p f).1, ∀ id row data, StoresRow s r id row data →
      data.iter.toNat = p.simulinkTime.toNat + f.timeDiff.toNat
  publish : p.service = Utils.serPublish → ∀ raw, payloadBuf2Float? g p.payload = some raw →
    ∀ f ∈ reached (publishRound s p raw) p.subpackets, ∀ r ∈ (publishRound s p raw f).1,
      ∀ id row data, StoresRow s r id row data →
        data.iter.toNat = p.simulinkTime.toNat + f.timeDiff.toNat + row
  request : p.service = Utils.serRequest → ∀ c ∈ requestCalls e p p.subpackets s,
    c.1.timeDiff ≠ 0 → c.1.timeDiff ≠ Utils.paramterRequestLast →
      (c.2.rangeEnd e c.1.dataID p.simulinkTime c.1.timeDiff).toNat =
        p.simulinkTime.toNat + c.1.timeDiff.toNat

/-- The packet ends in an error, and nothing is stored or sent. -/
structure Refused (g : Slice.Growth) (e : Env) (s : Server) (p : ServicePacket (Slice UInt8)) :
    Prop where
  error : ∃ err, (handlePkt g e p s).outcome = .returned (some err)
  sent : (handlePkt g e p s).server.world.sent = s.world.sent
  stored : ∀ r ∈ (handlePkt g e p s).spawned,
    (∀ id row data, ¬ StoresRow s r id row data) ∧ ∀ buf, ¬ Emits s r buf

/-- No sum reaches 2^32: of a record that is stored, or of a window that is read. -/
structure SumsFit (g : Slice.Growth) (e : Env) (s : Server) (p : ServicePacket (Slice UInt8)) :
    Prop where
  send : p.service = Utils.serSend → ∀ f ∈ reached (sendRound g s p) p.subpackets,
    ∀ raw, payloadBuf2Float? g f.payload = some raw → (s.handler.dataBuffer f.dataID).isSome →
      raw.len = (s.handler.dataShapes f.dataID).toNat →
        p.simulinkTime.toNat + f.timeDiff.toNat < 2 ^ 32
  publish : p.service = Utils.serPublish → ∀ raw, payloadBuf2Float? g p.payload = some raw →
    ∀ f ∈ reached (publishRound s p raw) p.subpackets, (s.handler.dataBuffer f.dataID).isSome →
      f.col = s.handler.dataShapes f.dataID → ∀ row < f.row.toNat,
        (row + 1) * f.col.toNat ≤ raw.cap →
          p.simulinkTime.toNat + f.timeDiff.toNat + row < 2 ^ 32
  request : p.service = Utils.serRequest → ∀ c ∈ requestCalls e p p.subpackets s,
    c.1.timeDiff ≠ 0 → c.1.timeDiff ≠ Utils.paramterRequestLast →
      p.simulinkTime.toNat + c.1.timeDiff.toNat < 2 ^ 32

/-- The first subframe of a request packet asks for a window, and its reply does not go out. -/
def FirstRequestFails (e : Env) (s : Server) (p : ServicePacket (Slice UInt8)) : Prop :=
  p.service = Utils.serRequest ∧ ∃ f fs, p.subpackets = f :: fs ∧ f.timeDiff ≠ 0 ∧
    f.timeDiff ≠ Utils.paramterRequestLast ∧ ¬ RangeGoesOut e s f.dataID p.src

section Packet
variable {g : Slice.Growth} {e : Env} {s : Server} {p : ServicePacket (Slice UInt8)}

theorem of_mem_forward? {f : SubPacket (Slice UInt8)} {raw : Slice Float64} {forwards : List Routine}
    (h : s.forward? p f raw = some forwards) {r : Routine} (hr : r ∈ forwards) :
    ∃ dst mat, r = .sendPkt dst p.priority p.simulinkTime p.flag f.dataID mat := by
  obtain ⟨i, hi, rfl⟩ := List.getElem_of_mem hr
  have hforward := (mapM_forall₂ h).get (by rw [(mapM_forall₂ h).length_eq]; exact hi) hi
  obtain ⟨mat, _, hmat⟩ := Option.map_eq_some_iff.mp hforward
  exact ⟨_, mat, hmat.symm⟩

/-- A row that is there has a value for each column. -/
theorem length_rowData {synt physicalTime : UInt32} {raw : Slice Float64} {col row : ℕ}
    (hin : (row + 1) * col ≤ raw.cap) :
    (rowData synt physicalTime raw col row).value.length = col := by
  obtain ⟨value, hvalue⟩ := (slice?_row row).mpr hin
  rw [rowData_of_slice? hvalue, Slice.length_toList, (Slice.slice?_some hvalue).2.2.1, Nat.succ_mul, Nat.add_sub_cancel_left]

theorem storesRow_sendRound {f : SubPacket (Slice UInt8)} {id : UInt16} {row : ℕ} {data : Data} :
    (∃ r ∈ (sendRound g s p f).1, StoresRow s r id row data) ↔
      ∃ raw, payloadBuf2Float? g f.payload = some raw ∧ (s.handler.dataBuffer f.dataID).isSome ∧
        raw.len = (s.handler.dataShapes f.dataID).toNat ∧ id = f.dataID ∧ row = 0 ∧
        data = ⟨p.simulinkTime + f.timeDiff.toUInt32, p.physicalTime, raw.toList⟩ := by
  constructor
  · rintro ⟨r, hr, hstore⟩
    cases hraw : payloadBuf2Float? g f.payload with
    | none =>
      rw [sendRound, hraw] at hr
      cases hr
    | some raw =>
      rcases (mem_sendRound hraw).mp hr with rfl | ⟨mat, _, dst, _, rfl⟩
      · obtain ⟨hshaped, hchan, rfl, rfl, rfl⟩ := storesRow_send.mp hstore
        rw [Handler.Shaped, Slice.length_toList] at hshaped
        exact ⟨raw, rfl, hchan, hshaped, rfl, rfl, rfl⟩
      · exact absurd hstore not_storesRow_sendPkt
  · rintro ⟨raw, hraw, hchan, hlen, rfl, rfl, rfl⟩
    refine ⟨_, (mem_sendRound hraw).mpr (.inl rfl), storesRow_send.mpr ⟨?_, hchan, rfl, rfl, rfl⟩⟩
    rw [Handler.Shaped, Slice.length_toList]
    exact hlen

theorem storesRow_publishRound {f : SubPacket (Slice UInt8)} {raw : Slice Float64} {id : UInt16}
    {row : ℕ} {data : Data} :
    (∃ r ∈ (publishRound s p raw f).1, StoresRow s r id row data) ↔
      (s.handler.dataBuffer f.dataID).isSome ∧ f.col = s.handler.dataShapes f.dataID ∧
        row < f.row.toNat ∧ (row + 1) * f.col.toNat ≤ raw.cap ∧ id = f.dataID ∧
        data = rowData (p.simulinkTime + f.timeDiff.toUInt32) p.physicalTime raw f.col.toNat row := by
  have hmem : ∀ r, r ∈ (publishRound s p raw f).1 →
      r = .publish f.dataID p.src f.row f.col (p.simulinkTime + f.timeDiff.toUInt32) p.physicalTime
        raw ∨ ∃ dst mat, r = .sendPkt dst p.priority p.simulinkTime p.flag f.dataID mat := by
    intro r hr
    unfold publishRound at hr
    dsimp only at hr
    split_ifs at hr
    · exact .inl (List.mem_singleton.mp hr)
    · split at hr
      · exact .inl (List.mem_singleton.mp hr)
      · rename_i forwards hforwards
        rcases List.mem_cons.mp hr with rfl | hr
        · exact .inl rfl
        · exact .inr (of_mem_forward? hforwards hr)
  have hstore : .publish f.dataID p.src f.row f.col (p.simulinkTime + f.timeDiff.toUInt32)
      p.physicalTime raw ∈ (publishRound s p raw f).1 := by
    unfold publishRound
    dsimp only
    split_ifs
    · exact List.mem_singleton.mpr rfl
    · split
      · exact List.mem_singleton.mpr rfl
      · exact List.mem_cons_self
  have hshape : f.col = s.handler.dataShapes f.dataID → (row + 1) * f.col.toNat ≤ raw.cap →
      s.handler.Shaped f.dataID
        (rowData (p.simulinkTime + f.timeDiff.toUInt32) p.physicalTime raw f.col.toNat row) := by
    intro hcol hin
    rw [Handler.Shaped, ← hcol]
    exact length_rowData hin
  constructor
  · rintro ⟨r, hr, hstored⟩
    rcases hmem r hr with rfl | ⟨dst, mat, rfl⟩
    · obtain ⟨hshaped, hchan, rfl, hrow, hin, rfl⟩ := storesRow_publish.mp hstored
      refine ⟨hchan, ?_, hrow, hin, rfl, rfl⟩
      rw [Handler.Shaped, length_rowData hin] at hshaped
      exact UInt8.toNat_inj.mp hshaped
    · exact absurd hstored not_storesRow_sendPkt
  · rintro ⟨hchan, hcol, hrow, hin, rfl, rfl⟩
    exact ⟨_, hstore, storesRow_publish.mpr ⟨hshape hcol hin, hchan, rfl, hrow, hin, rfl⟩⟩

/-- The times are exact when no sum wraps, and only then. -/
theorem timesExact_iff : TimesExact g e s p ↔ SumsFit g e s p := by
  constructor
  · intro h
    constructor
    · intro hsend f hf raw hraw hchan hlen
      obtain ⟨r, hr, hstored⟩ := storesRow_sendRound.mpr ⟨raw, hraw, hchan, hlen, rfl, rfl, rfl⟩
      exact (toNat_time_iff _ _).mp (h.send hsend f hf r hr _ _ _ hstored)
    · intro hpublish raw hraw f hf hchan hcol row hrow hin
      obtain ⟨r, hr, hstored⟩ := storesRow_publishRound.mpr ⟨hchan, hcol, hrow, hin, rfl, rfl⟩
      have hlt : row < 256 := hrow.trans f.row.toNat_lt
      exact (toNat_rowTime_iff _ _ hlt).mp (h.publish hpublish raw hraw f hf r hr _ _ _ hstored)
    · intro hrequest c hc hzero hlast
      have hend := h.request hrequest c hc hzero hlast
      rw [rangeEnd_of_ne hlast] at hend
      exact (toNat_time_iff _ _).mp hend
  · intro h
    constructor
    · intro hsend f hf r hr id row data hstored
      obtain ⟨raw, hraw, hchan, hlen, _, _, rfl⟩ := storesRow_sendRound.mp ⟨r, hr, hstored⟩
      exact (toNat_time_iff _ _).mpr (h.send hsend f hf raw hraw hchan hlen)
    · intro hpublish raw hraw f hf r hr id row data hstored
      obtain ⟨hchan, hcol, hrow, hin, _, rfl⟩ := storesRow_publishRound.mp ⟨r, hr, hstored⟩
      have hlt : row < 256 := hrow.trans f.row.toNat_lt
      exact (toNat_rowTime_iff _ _ hlt).mpr
        (h.publish hpublish raw hraw f hf hchan hcol row hrow hin)
    · intro hrequest c hc hzero hlast
      rw [rangeEnd_of_ne hlast]
      exact (toNat_time_iff _ _).mpr (h.request hrequest c hc hzero hlast)

theorem SumsFit.of_refused (h : Refused g e s p) (hrequest : p.service ≠ Utils.serRequest) :
    SumsFit g e s p := by
  refine timesExact_iff.mp ⟨?_, ?_, fun hr => absurd hr hrequest⟩
  · intro hsend f hf r hr id row data hstored
    have hmem : r ∈ (handlePkt g e p s).spawned := by
      rw [handlePkt_send_spawned g e s p hsend]
      exact List.mem_flatMap.mpr ⟨f, hf, hr⟩
    exact absurd hstored ((h.stored r hmem).1 id row data)
  · intro hpublish raw hraw f hf r hr id row data hstored
    have hmem : r ∈ (handlePkt g e p s).spawned := by
      rw [handlePkt_publish hpublish hraw, rangeLoop_fst]
      exact List.mem_flatMap.mpr ⟨f, hf, hr⟩
    exact absurd hstored ((h.stored r hmem).1 id row data)

theorem sendPkt_sent_of_nil {dst priority : UInt8} {synt : UInt32} {flag : UInt8} {id : UInt16}
    {mat : List (List Float64)} {t : Server}
    (h : (t.sendPkt e dst priority synt flag id mat).1 = none) :
    ∃ d, (t.sendPkt e dst priority synt flag id mat).2.world.sent = t.world.sent ++ [d] := by
  rcases transmit_cases e dst (toServiceBuf (dataPkt e t dst priority synt flag id mat)) t.numbered
    with ⟨err, w, ht, _, _⟩ | ⟨addr, w, ht, _, _, _, hw⟩
  · rw [sendPkt, ht] at h
    cases h
  · rw [sendPkt, ht]
    exact ⟨_, hw⟩

theorem request_sent_of_nil {id : UInt16} {synt : UInt32} {dst priority : UInt8} {t : Server}
    (h : (t.request e id synt dst priority).1 = none) :
    ∃ d, (t.request e id synt dst priority).2.world.sent = t.world.sent ++ [d] := by
  have hlast : (t.queryLastSynt e id).2.world.sent = t.world.sent := by
    change (DRDS.queryLastSynt e id t.world).2.sent = t.world.sent
    rw [queryLastSynt_world]
    rfl
  unfold request at h ⊢
  split_ifs at h ⊢
  all_goals
    dsimp only at h ⊢
    split at h
    · cases h
    · obtain ⟨d, hd⟩ := sendPkt_sent_of_nil h
      rw [Handler.readSynt_world] at hd
      refine ⟨d, ?_⟩
      rw [Handler.readSynt_world, hd]
      first | exact congrArg (· ++ [d]) hlast | rfl

theorem requestRange_sent_of_nil {id : UInt16} {timeStart : UInt32} {timeDiff : UInt16}
    {dst priority : UInt8} {t : Server}
    (h : (t.requestRange e id timeStart timeDiff dst priority).1 = none) :
    ∃ d, (t.requestRange e id timeStart timeDiff dst priority).2.world.sent =
      t.world.sent ++ [d] := by
  obtain ⟨u, _, hsent, hrun⟩ := requestRange_reads e id timeStart timeDiff dst priority t
  have hworld := t.handler.readRange_world e id timeStart (t.rangeEnd e id timeStart timeDiff) u.world
  rcases hread : t.handler.readRange e id timeStart (t.rangeEnd e id timeStart timeDiff) u.world with
    ⟨err | ⟨simuVec, phyVec, dataMat⟩, w⟩
  · rw [hrun, hread] at h
    cases h
  · rw [hread] at hrun hworld
    obtain rfl : w = u.world.tick := hworld
    rw [hrun] at h ⊢
    obtain ⟨d, hd⟩ := sendPkt_sent_of_nil h
    exact ⟨d, hd.trans (congrArg (· ++ [d]) hsent)⟩

theorem requestCall_sent_of_nil {f : SubPacket (Slice UInt8)}
    (h : (requestCall e p f s).1 = .returned none) :
    ∃ d, (requestCall e p f s).2.world.sent = s.world.sent ++ [d] := by
  unfold requestCall at h ⊢
  split_ifs at h ⊢
  · exact request_sent_of_nil (Outcome.returned.inj h)
  · exact requestRange_sent_of_nil (Outcome.returned.inj h)

theorem requestCall_of_ne {f : SubPacket (Slice UInt8)} (h : f.timeDiff ≠ 0) :
    requestCall e p f s =
      (.returned (s.requestRange e f.dataID p.simulinkTime f.timeDiff p.src p.priority).1,
        (s.requestRange e f.dataID p.simulinkTime f.timeDiff p.src p.priority).2) := by
  rw [requestCall, if_neg h]

/-- A request packet that sends nothing ends at its first subframe. -/
theorem requestCalls_of_silent {f : SubPacket (Slice UInt8)} {fs : List (SubPacket (Slice UInt8))}
    (hsilent : (callLoop (requestCall e p) (f :: fs) s).2.world.sent = s.world.sent) :
    (requestCall e p f s).1 ≠ .returned none ∧ requestCalls e p (f :: fs) s = [(f, s)] := by
  have hne : (requestCall e p f s).1 ≠ .returned none := by
    intro hnil
    obtain ⟨d, hd⟩ := requestCall_sent_of_nil hnil
    rcases hrun : requestCall e p f s with ⟨o, t⟩
    rw [hrun] at hnil hd
    obtain rfl : o = .returned none := hnil
    rw [callLoop_cons_of_nil hrun] at hsilent
    have hrest : Sends (fun _ => True) t (callLoop (requestCall e p) fs t).2 :=
      callLoop_sends fun x _ u _ => requestCall_sends fun _ _ _ _ => trivial
    obtain ⟨ds, hds, _⟩ := hrest.sent
    rw [hds, hd, List.append_assoc] at hsilent
    simp at hsilent
  refine ⟨hne, ?_⟩
  rw [requestCalls]
  rcases hrun : requestCall e p f s with ⟨o, t⟩
  rw [hrun] at hne
  split
  · rename_i heq
    cases heq
    exact absurd rfl hne
  · rfl

theorem firstRequestFails_of_refused (he : e.IgnoresBytes) (h : Refused g e s p)
    (hrequest : p.service = Utils.serRequest) (hwrap : ¬ SumsFit g e s p) :
    FirstRequestFails e s p := by
  obtain ⟨c, hc, hzero, hlast, hsum⟩ : ∃ c ∈ requestCalls e p p.subpackets s,
      c.1.timeDiff ≠ 0 ∧ c.1.timeDiff ≠ Utils.paramterRequestLast ∧
        2 ^ 32 ≤ p.simulinkTime.toNat + c.1.timeDiff.toNat := by
    by_contra hnone
    push Not at hnone
    refine hwrap ⟨fun hsend => ?_, fun hpublish => ?_, fun _ => hnone⟩
    · rw [hrequest] at hsend
      exact absurd hsend (by decide)
    · rw [hrequest] at hpublish
      exact absurd hpublish (by decide)
  cases hsubs : p.subpackets with
  | nil =>
    rw [hsubs] at hc
    cases hc
  | cons f fs =>
    have hsilent := h.sent
    rw [handlePkt_request hrequest, hsubs] at hsilent
    obtain ⟨hne, hcalls⟩ := requestCalls_of_silent hsilent
    rw [hsubs, hcalls, List.mem_singleton] at hc
    obtain rfl := hc
    refine ⟨hrequest, f, fs, hsubs, hzero, hlast, fun hgoes => hne ?_⟩
    rw [requestCall_of_ne hzero, requestRange_of_wrap he hlast hsum hgoes]

theorem refused_of_firstRequestFails (he : e.IgnoresBytes) (h : FirstRequestFails e s p) :
    Refused g e s p := by
  obtain ⟨hrequest, f, fs, hsubs, hzero, hlast, hno⟩ := h
  obtain ⟨herr, hsent⟩ :
      (s.requestRange e f.dataID p.simulinkTime f.timeDiff p.src p.priority).1 ≠ none ∧
        (s.requestRange e f.dataID p.simulinkTime f.timeDiff p.src p.priority).2.world.sent =
          s.world.sent := requestRange_of_not_goesOut he hlast hno
  have hcall := requestCall_of_ne (e := e) (s := s) (p := p) hzero
  obtain ⟨err, herr⟩ := Option.ne_none_iff_exists'.mp herr
  have hne : (requestCall e p f s).1 ≠ .returned none := by
    rw [hcall, herr]
    simp
  have hrun : handlePkt g e p s = ⟨(requestCall e p f s).1, [], (requestCall e p f s).2⟩ := by
    rw [handlePkt_request hrequest, hsubs, callLoop_cons_of_ne hne]
  refine ⟨⟨err, ?_⟩, ?_, ?_⟩
  · rw [hrun, hcall, herr]
  · rw [hrun, hcall]
    exact hsent
  · rw [hrun]
    exact fun r hr => absurd hr List.not_mem_nil

end Packet

/-- Times are exact or the packet is refused exactly when no sum of a stored record or of a window
reaches 2^32, or the reply to the first window does not go out anyway. -/
theorem times_exact_or_refused_iff (g : Slice.Growth) (e : Env) (he : e.IgnoresBytes) (s : Server)
    (p : ServicePacket (Slice UInt8)) :
    TimesExact g e s p ∨ Refused g e s p ↔ SumsFit g e s p ∨ FirstRequestFails e s p := by
  constructor
  · rintro (hexact | hrefused)
    · exact .inl (timesExact_iff.mp hexact)
    · by_cases hfit : SumsFit g e s p
      · exact .inl hfit
      · by_cases hrequest : p.service = Utils.serRequest
        · exact .inr (firstRequestFails_of_refused he hrefused hrequest hfit)
        · exact .inl (.of_refused hrefused hrequest)
  · rintro (hfit | hfails)
    · exact .inl (timesExact_iff.mpr hfit)
    · exact .inr (refused_of_firstRequestFails he hfails)

/-- One value of data id 3, a tick after the last time of the header. -/
def lastTickPacket : ServicePacket (List UInt8) :=
  { clientPacket Utils.serSend [⟨3, 1, 1, 1, 1, [0, 0, 0, 0, 0, 0, 0xf0, 0x3f]⟩] [] with
    simulinkTime := 0xFFFFFFFF }

theorem lastTickPacket_valid16 : lastTickPacket.Valid16 :=
  ⟨⟨by decide, by decide, by decide, by decide⟩, rfl,
    by simp [lastTickPacket, clientPacket, SubPacket.Valid16]⟩

/-- The record is stored, of time 0. -/
theorem lastTickPacket_stored_wrong :
    ∃ p, fromServiceBuf? (listenBuf (wire lastTickPacket)) = some p ∧
      ¬ (TimesExact .tight .reliable afterInit p ∨ Refused .tight .reliable afterInit p) := by
  obtain ⟨p, hp, hv⟩ := listenBuf_decodes lastTickPacket_valid16 (by decide)
  refine ⟨p, hp, ?_⟩
  obtain ⟨f, hpf, hf⟩ := List.map_eq_singleton_iff.mp (congrArg ServicePacket.subpackets hv)
  obtain ⟨q, rfl⟩ : ∃ q, f = ⟨3, 1, 1, 1, 1, q⟩ := ⟨f.payload, SubPacket.eq_of_visible hf⟩
  have hsend : p.service = Utils.serSend := congrArg ServicePacket.service hv
  have htime : p.simulinkTime = 0xFFFFFFFF := congrArg (·.simulinkTime) hv
  have hmem : ⟨3, 1, 1, 1, 1, q⟩ ∈ p.subpackets := by simp [hpf]
  have hreached : ⟨3, 1, 1, 1, 1, q⟩ ∈ reached (sendRound .tight afterInit p) p.subpackets := by
    simp [hpf, reached]
  obtain ⟨raw, hraw, hlen⟩ := payload_of_decoded hp .tight hmem
  have hchan : (afterInit.handler.dataBuffer 3).isSome := by decide +kernel
  have hshape : raw.len = (afterInit.handler.dataShapes 3).toNat := by
    have hone : (afterInit.handler.dataShapes 3).toNat = 1 := by decide +kernel
    rw [hone]
    exact hlen
  obtain ⟨r, hr, hstored⟩ := storesRow_sendRound.mpr ⟨raw, hraw, hchan, hshape, rfl, rfl, rfl⟩
  rintro (hexact | hrefused)
  · have hiter := hexact.send hsend _ hreached r hr _ _ _ hstored
    rw [htime] at hiter
    have hwraps : ¬ (0xFFFFFFFF + (1 : UInt16).toUInt32).toNat =
        (0xFFFFFFFF : UInt32).toNat + (1 : UInt16).toNat := by decide
    exact hwraps hiter
  · have hspawned : r ∈ (handlePkt .tight .reliable p afterInit).spawned := by
      rw [handlePkt_send_spawned _ _ _ p hsend]
      exact List.mem_flatMap.mpr ⟨_, hreached, hr⟩
    exact (hrefused.stored r hspawned).1 _ _ _ hstored

theorem lastTickPacket_exact_or_refused_iff :
    ∃ p, fromServiceBuf? (listenBuf (wire lastTickPacket)) = some p ∧
      (TimesExact .tight .reliable afterInit p ∨ Refused .tight .reliable afterInit p ↔
        SumsFit .tight .reliable afterInit p ∨ FirstRequestFails .reliable afterInit p) := by
  obtain ⟨p, hp, _⟩ := listenBuf_decodes lastTickPacket_valid16 (by decide)
  exact ⟨p, hp, times_exact_or_refused_iff .tight .reliable Env.reliable_ignoresBytes afterInit p⟩

end DRDS.Server
