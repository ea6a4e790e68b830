import DRDS.Handler.ReadRange
import DRDS.Handler.ReadSynt
import DRDS.Server.Effects

/-! Requests of a single time: what the reply says, and the same request as a range of one time. -/
namespace DRDS.Server
open Go

/-! ### The time that is read -/

/-- The time a request asks for: the greatest stored, if it asks for the last. -/
def requestedSynt (t : Table) (synt : UInt32) : UInt32 :=
  if synt = Utils.timeSimuLast then t.lastSynt else synt

/-- The time `Request` reads. A query for the last time that fails answers 0. -/
def lookedUp (e : Env) (s : Server) (t : Table) (synt : UInt32) : UInt32 :=
  if synt = Utils.timeSimuLast ∧ e.statement s.world.calls ≠ none then 0 else requestedSynt t synt

/-- How many questions come before the SELECT of the record. -/
def lookups (synt : UInt32) : ℕ := if synt = Utils.timeSimuLast then 1 else 0

/-- The greatest stored time is not asked for, or it is answered, or the answer to a failed
query is right. -/
def FindsLast (e : Env) (s : Server) (t : Table) (synt : UInt32) : Prop :=
  synt = Utils.timeSimuLast → e.statement s.world.calls = none ∨ t.lastSynt = 0

theorem lookedUp_eq_iff {e : Env} {s : Server} {t : Table} {synt : UInt32} :
    lookedUp e s t synt = requestedSynt t synt ↔ FindsLast e s t synt := by
  unfold lookedUp FindsLast
  by_cases hlast : synt = Utils.timeSimuLast
  · by_cases he : e.statement s.world.calls = none
    · simp [hlast, he]
    · simp [hlast, he, requestedSynt, eq_comm]
  · simp [hlast]

def asked (s : Server) (n : ℕ) : Server :=
  { s with world := { s.world with calls := s.world.calls + n } }

variable {e : Env} {s : Server} {id : UInt16} {t : Table}

/-- `Request` sends one row, whatever it finds. -/
theorem request_eq_sendPkt (synt : UInt32) (dst priority : UInt8) (ht : s.world.tables id = some t) :
    ∃ values, s.handler.SyntValues e id t (lookedUp e s t synt) (s.world.calls + lookups synt)
        values ∧
      s.request e id synt dst priority =
        sendPkt e dst priority (lookedUp e s t synt) Utils.flagSingle id [values]
          (s.asked (lookups synt + 1)) := by
  unfold request
  by_cases hlast : synt = Utils.timeSimuLast
  · have hcalls : lookups synt = 1 := if_pos hlast
    have hquery : s.queryLastSynt e id =
        (lookedUp e s t synt, { s with world := s.world.tick }) := by
      unfold queryLastSynt lookedUp requestedSynt
      by_cases he : e.statement s.world.calls = none
      · rw [queryLastSynt_of_answer ht he]
        simp [hlast, he]
      · rw [queryLastSynt_of_error e id s.world he]
        simp [hlast, he]
    rw [if_pos hlast, hcalls, hquery]
    obtain ⟨recvT, values, hread, hvalues⟩ := s.handler.readSynt_values (e := e) (w := s.world.tick)
      (lookedUp e s t synt) ht
    refine ⟨values, hvalues, ?_⟩
    dsimp only
    rw [hread]
    rfl
  · have hcalls : lookups synt = 0 := if_neg hlast
    have htime : lookedUp e s t synt = synt := by
      rw [lookedUp, if_neg (fun h => hlast h.1), requestedSynt, if_neg hlast]
    rw [if_neg hlast, hcalls, htime]
    obtain ⟨recvT, values, hread, hvalues⟩ := s.handler.readSynt_values (e := e) synt ht
    refine ⟨values, hvalues, ?_⟩
    dsimp only
    rw [hread]
    rfl

/-! ### The reply -/

/-- A data packet for a client is one row: the record's time and the values of all columns. -/
def IsReply (h : Handler) (dst : UInt8) (id : UInt16) (r : Row) (buf : List UInt8) : Prop :=
  ∃ p f, fromServiceBuf? (.ofList buf) = some p ∧ p.service = Utils.serSend ∧ p.dst = dst ∧
    p.simulinkTime = r.iter ∧ p.subpackets = [f] ∧ f.dataID = id ∧ f.row = 1 ∧
    f.col = h.dataShapes id ∧
    f.payload.toList = payloadFloat2Buf (r.read (h.dataShapes id).toNat)

/-- A request is answered by at most one datagram, a reply for the requester with a record of the
time asked for. Where there is no such record it fails and nothing is sent. -/
structure AnswersRequest (e : Env) (s : Server) (id : UInt16) (t : Table) (synt : UInt32)
    (dst priority : UInt8) : Prop where
  reply : (s.request e id synt dst priority).2.world.sent = s.world.sent ∨
    ∃ addr buf r, s.allClientAddr dst = some addr ∧ r ∈ t.rows ∧ r.iter = requestedSynt t synt ∧
      IsReply s.handler dst id r buf ∧
      (s.request e id synt dst priority).2.world.sent = s.world.sent ++ [(addr, buf)]
  refused : (∀ r ∈ t.rows, r.iter ≠ requestedSynt t synt) →
    (s.request e id synt dst priority).1 ≠ none ∧
      (s.request e id synt dst priority).2.world.sent = s.world.sent

/-- The SELECT of a request can be read into the columns of the shape, of which there may be
none. -/
def ReadsRow (e : Env) (s : Server) (id : UInt16) (t : Table) (synt : UInt32) : Prop :=
  s.handler.dataShapes id = 0 ∨
    s.handler.Scans id t ∧ e.statement (s.world.calls + lookups synt) = none

section Reply
variable {h : Handler} {dst priority : UInt8} {synt : UInt32} {values : List Float64}

/-- One row of at most 255 values comes back as it was sent. -/
theorem isReply_dataPkt_iff {r : Row} (flag : UInt8) (hlen : values.length < 256) :
    IsReply h dst id r (toServiceBuf (dataPkt e s dst priority synt flag id [values])) ↔
      synt = r.iter ∧ values.length = (h.dataShapes id).toNat ∧
        payloadFloat2Buf values = payloadFloat2Buf (r.read (h.dataShapes id).toNat) := by
  have hC : ∀ row ∈ [values], row.length = values.length := by simp
  obtain ⟨p, hp, hv⟩ := decodes_dataPkt e s dst priority synt flag id hC (by simp)
    ⟨by simp, hlen⟩ (by simp only [List.length_singleton]; omega)
  have hsubs : p.subpackets.map SubPacket.visible = [dataFrame id [values]] := by
    rw [← subpackets_dataWire e s dst priority synt flag]
    exact congrArg ServicePacket.subpackets hv
  obtain ⟨f, hpf, hf⟩ := List.map_eq_singleton_iff.mp hsubs
  have hsynt : p.simulinkTime = synt := congrArg (fun v => v.simulinkTime) hv
  have hcol : f.col = .ofNat values.length := congrArg SubPacket.col hf
  have hpay : f.payload.toList = payloadFloat2Buf values := by
    have hflat : f.payload.toList = payloadFloat2Buf [values].flatten :=
      congrArg SubPacket.payload hf
    rwa [List.flatten_singleton] at hflat
  have hcolIff : f.col = h.dataShapes id ↔ values.length = (h.dataShapes id).toNat := by
    rw [hcol, ← UInt8.toNat_inj, UInt8.toNat_ofNat', Nat.mod_eq_of_lt hlen]
  constructor
  · rintro ⟨q, g, hq, _, _, htime, hqg, _, _, hgcol, hgpay⟩
    obtain rfl : q = p := Option.some.inj (hq.symm.trans hp)
    obtain rfl : g = f := List.singleton_inj.mp (hqg.symm.trans hpf)
    exact ⟨hsynt ▸ htime, hcolIff.mp hgcol, hpay ▸ hgpay⟩
  · rintro ⟨rfl, hshape, hread⟩
    exact ⟨p, f, hp, congrArg ServicePacket.service hv, congrArg (fun v => v.dst) hv, hsynt, hpf,
      congrArg SubPacket.dataID hf, congrArg SubPacket.row hf, hcolIff.mpr hshape, hpay.trans hread⟩

end Reply

section Request
variable {synt : UInt32} {dst priority : UInt8} {values : List Float64}

/-- `Request` puts its row on the wire, or puts nothing there and fails. -/
theorem request_cases (he : e.IgnoresBytes) (synt : UInt32) (dst priority : UInt8)
    (ht : s.world.tables id = some t) : ∃ values,
      s.handler.SyntValues e id t (lookedUp e s t synt) (s.world.calls + lookups synt) values ∧
      ((Reached e s dst (s.world.calls + lookups synt + 2) ∧ ∃ addr,
          s.allClientAddr dst = some addr ∧
          (s.request e id synt dst priority).2.world.sent = s.world.sent ++
            [(addr, toServiceBuf (dataPkt e (s.asked (lookups synt + 1)) dst priority
              (lookedUp e s t synt) Utils.flagSingle id [values]))]) ∨
        (¬ Reached e s dst (s.world.calls + lookups synt + 2) ∧
          (s.request e id synt dst priority).1 ≠ none ∧
          (s.request e id synt dst priority).2.world.sent = s.world.sent)) := by
  obtain ⟨values, hv, hrun⟩ := request_eq_sendPkt (e := e) synt dst priority ht
  refine ⟨values, hv, ?_⟩
  have hlen := hv.length_lt
  have hfit : 30 + 8 * [values].flatten.length ≤ 65507 := by
    rw [List.flatten_singleton]
    omega
  rw [hrun]
  by_cases hreach : Reached e (s.asked (lookups synt + 1)) dst
      ((s.asked (lookups synt + 1)).world.calls + 1)
  · obtain ⟨addr, haddr, _, hsent⟩ := sendPkt_of_reached he priority (lookedUp e s t synt)
      Utils.flagSingle id hreach hfit
    exact .inl ⟨hreach, addr, haddr, hsent⟩
  · obtain ⟨herr, hsent⟩ := sendPkt_of_not_reached he priority (lookedUp e s t synt)
      Utils.flagSingle id [values] hreach
    exact .inr ⟨hreach, herr, hsent⟩

theorem answersRequest_iff_of_sent {addr : Addr} {buf : List UInt8}
    (haddr : s.allClientAddr dst = some addr)
    (hsent : (s.request e id synt dst priority).2.world.sent = s.world.sent ++ [(addr, buf)]) :
    AnswersRequest e s id t synt dst priority ↔
      ∃ r ∈ t.rows, r.iter = requestedSynt t synt ∧ IsReply s.handler dst id r buf := by
  constructor
  · rintro ⟨hsame | ⟨addr', buf', r, _, hr, htime, hreply, hsent'⟩, _⟩
    · rw [hsent] at hsame
      simp at hsame
    · rw [hsent] at hsent'
      obtain rfl : buf = buf' :=
        congrArg Prod.snd (List.singleton_inj.mp (List.append_cancel_left hsent'))
      exact ⟨r, hr, htime, hreply⟩
  · rintro ⟨r, hr, htime, hreply⟩
    exact ⟨.inr ⟨addr, buf, r, haddr, hr, htime, hreply, hsent⟩,
      fun hnone => absurd htime (hnone r hr)⟩

theorem isReply_record_iff {s' : Server} (flag : UInt8)
    (hv : s.handler.SyntValues e id t (lookedUp e s t synt) (s.world.calls + lookups synt) values) :
    (∃ r ∈ t.rows, r.iter = requestedSynt t synt ∧ IsReply s.handler dst id r
        (toServiceBuf (dataPkt e s' dst priority (lookedUp e s t synt) flag id [values]))) ↔
      (∃ r ∈ t.rows, r.iter = requestedSynt t synt) ∧ ReadsRow e s id t synt ∧
        FindsLast e s t synt := by
  simp only [isReply_dataPkt_iff flag hv.length_lt]
  constructor
  · rintro ⟨r, hr, htime, hsynt, hshape, _⟩
    refine ⟨⟨r, hr, htime⟩, ?_, lookedUp_eq_iff.mp (hsynt.trans htime)⟩
    cases hv with
    | row _ hanswer hscans => exact .inr ⟨hscans, hanswer⟩
    | none => exact .inl (UInt8.toNat_inj.mp hshape.symm)
  · rintro ⟨⟨r, hr, htime⟩, hreads, hfinds⟩
    have hsynt := lookedUp_eq_iff.mpr hfinds
    cases hv with
    | @row r' hr' _ _ =>
      obtain ⟨hmem, htime'⟩ := Table.mem_of_rowAt? hr'
      exact ⟨r', hmem, htime'.trans hsynt, htime'.symm, Row.length_read _ _, rfl⟩
    | none hno =>
      rcases hreads with hzero | ⟨hscans, hanswer⟩
      · refine ⟨r, hr, htime, hsynt.trans htime.symm, ?_, ?_⟩
        · rw [hzero]
          rfl
        · rw [hzero]
          rfl
      · rcases hno with hnone | hfails | hnot
        · rw [hsynt] at hnone
          exact absurd htime (Table.rowAt?_eq_none.mp hnone r hr)
        · exact absurd hanswer hfails
        · exact absurd hscans hnot

end Request

/-- A request is answered as it should exactly when its reply does not reach the requester, or a
record of the time exists, its SELECT is answered and scanned, and the last time is found. -/
theorem request_answers_iff (e : Env) (he : e.IgnoresBytes) (s : Server) (id : UInt16) (t : Table)
    (synt : UInt32) (dst priority : UInt8) (ht : s.world.tables id = some t) :
    AnswersRequest e s id t synt dst priority ↔
      ¬ Reached e s dst (s.world.calls + lookups synt + 2) ∨
        (∃ r ∈ t.rows, r.iter = requestedSynt t synt) ∧ ReadsRow e s id t synt ∧
          FindsLast e s t synt := by
  obtain ⟨values, hv, hcases⟩ := request_cases he synt dst priority ht
  rcases hcases with ⟨hreach, addr, haddr, hsent⟩ | ⟨hno, herr, hsent⟩
  · rw [answersRequest_iff_of_sent haddr hsent, isReply_record_iff Utils.flagSingle hv,
      or_iff_right (not_not_intro hreach)]
  · exact ⟨fun _ => .inl hno, fun _ => ⟨.inl hsent, fun _ => ⟨herr, hsent⟩⟩⟩

/-- A request to an empty table is answered with a packet of no values. -/
theorem empty_table_not_answersRequest :
    ¬ AnswersRequest .reliable afterInit 3 ⟨1, []⟩ 500 2 7 := by
  rintro ⟨_, hrefused⟩
  have herr := (hrefused (by simp)).1
  exact herr (by decide +kernel)

def holding (t : Table) : Server := { afterInit with handler := t.handler, world := t.world }

/-- A time that is stored is answered, and so is the last, but no other. -/
theorem unorderedTable_answersRequest :
    AnswersRequest .reliable (holding unorderedTable) 3 unorderedTable 7 2 7 ∧
      AnswersRequest .reliable (holding unorderedTable) 3 unorderedTable Utils.timeSimuLast 2 7 ∧
      ¬ AnswersRequest .reliable (holding unorderedTable) 3 unorderedTable 500 2 7 := by
  have hscans : (holding unorderedTable).handler.Scans 3 unorderedTable :=
    ⟨⟨by decide, by decide⟩, by decide⟩
  have hanswers := fun synt => request_answers_iff .reliable Env.reliable_ignoresBytes
    (holding unorderedTable) 3 unorderedTable synt 2 7 rfl
  refine ⟨(hanswers 7).mpr (.inr ⟨by decide, .inr ⟨hscans, rfl⟩, fun _ => .inl rfl⟩),
    (hanswers Utils.timeSimuLast).mpr (.inr ⟨by decide, .inr ⟨hscans, rfl⟩, fun _ => .inl rfl⟩), ?_⟩
  intro hanswered
  rcases (hanswers 500).mp hanswered with hlost | ⟨hstored, _⟩
  · exact hlost ⟨_, rfl, rfl, rfl⟩
  · exact absurd hstored (by decide)

/-! ### The range of one time -/

/-- Both requests of a single time put the same on the wire, up to stamps. -/
def SameReply (e : Env) (s : Server) (id : UInt16) (synt : UInt32) (dst priority : UInt8) : Prop :=
  (s.requestRange e id synt 1 dst priority).2.world.sent.map withoutStamp =
    (s.request e id synt dst priority).2.world.sent.map withoutStamp

/-- The matrix `ReadRange` makes of one row. -/
def rangeRow (h : Handler) (id : UInt16) (r : Row) : List Float64 :=
  if h.dataShapes id < 254 then r.read (h.dataShapes id).toNat else []

theorem length_rangeRow_lt {h : Handler} {r : Row} : (rangeRow h id r).length < 256 := by
  unfold rangeRow
  split_ifs
  · rw [Row.length_read]
    exact UInt8.toNat_lt _
  · decide

theorem lt_add_one_iff {synt iter : UInt32} (h : synt ≠ Utils.timeSimuLast) :
    synt ≤ iter ∧ iter < synt + 1 ↔ iter = synt := by
  have hne : synt.toNat ≠ 0xFFFFFFFF := fun heq => h (UInt32.toNat_inj.mp heq)
  have hlt := synt.toNat_lt
  have hnext : (synt + 1).toNat = synt.toNat + 1 := by
    rw [UInt32.toNat_add]
    change (synt.toNat + 1) % 4294967296 = _
    omega
  rw [UInt32.le_iff_toNat_le, UInt32.lt_iff_toNat_lt, hnext, ← UInt32.toNat_inj]
  omega

theorem range_of_one {synt : UInt32} {r : Row} (h : synt ≠ Utils.timeSimuLast)
    (hone : (t.rows.filter fun r => r.iter = synt) = [r]) : t.range synt (synt + 1) = [r] := by
  rw [← hone, Table.range]
  apply List.filter_congr
  intro r' _
  exact decide_eq_decide.mpr (lt_add_one_iff h)

theorem readRange_of_one {start stop : UInt32} {r : Row} {w : World} {h : Handler}
    (ht : w.tables id = some t) (he : e.statement w.calls = none) (hs : h.Selects id t)
    (hone : t.range start stop = [r]) : ∃ simuVec phyVec,
      h.readRange e id start stop w = (.ok (simuVec, phyVec, [rangeRow h id r]), w.tick) := by
  have hworld := h.readRange_world e id start stop w
  by_cases hsize : h.dataShapes id < 254
  · refine ⟨[r.iter], [r.recvT], ?_⟩
    rw [h.readRange_of_answer ht he hs hsize, hone, rangeRow, if_pos hsize]
    rfl
  · obtain ⟨rows, hlen, hok⟩ := h.readRange_scanned start stop ht he hs
    rw [hone] at hlen
    obtain ⟨r', rfl⟩ := List.length_eq_one_iff.mp hlen
    have hempty := (scanRow_of_le (UInt8.not_lt.mp hsize) r').2
    rw [List.map_singleton, hempty] at hok
    rw [rangeRow, if_neg hsize]
    exact ⟨_, _, Prod.ext hok hworld⟩

theorem requestRange_of_one {synt : UInt32} {r : Row} (dst priority : UInt8)
    (ht : s.world.tables id = some t) (hone : t.range synt (synt + 1) = [r]) :
    (e.statement s.world.calls = none ∧ s.handler.Selects id t ∧
      s.requestRange e id synt 1 dst priority =
        sendPkt e dst Utils.priorityHight synt Utils.flagSingle id [rangeRow s.handler id r]
          { s with world := s.world.tick }) ∨
    (¬ (e.statement s.world.calls = none ∧ s.handler.Selects id t) ∧
      ∃ err, s.requestRange e id synt 1 dst priority = (some err, { s with world := s.world.tick })) := by
  unfold requestRange
  rw [if_neg (by decide)]
  have hworld := s.handler.readRange_world e id synt (synt + 1) s.world
  rcases s.handler.readRange_answer (e := e) synt (synt + 1) ht with
    ⟨err, herr, hno⟩ | ⟨hanswer, hs, _⟩
  · right
    have hread : s.handler.readRange e id synt (synt + UInt16.toUInt32 1) s.world =
        (.error err, s.world.tick) := Prod.ext herr hworld
    exact ⟨hno, err, by dsimp only; rw [hread]⟩
  · left
    obtain ⟨simuVec, phyVec, hread⟩ := readRange_of_one ht hanswer hs hone
    have hread' : s.handler.readRange e id synt (synt + UInt16.toUInt32 1) s.world =
        (.ok (simuVec, phyVec, [rangeRow s.handler id r]), s.world.tick) := hread
    exact ⟨hanswer, hs, by dsimp only; rw [hread']⟩

theorem take_four_toServiceBuf (pkt : ServicePacket (Slice UInt8)) :
    (toServiceBuf pkt).take 4 = [pkt.src, pkt.dst] ++ leBytes 2 (nibbles pkt.toPacket).toNat := by
  have hsplit : toServiceBuf pkt = ([pkt.src, pkt.dst] ++ leBytes 2 (nibbles pkt.toPacket).toNat) ++
      (toServiceBuf pkt).drop 4 := by
    simp [toServiceBuf, bufExt, headerBuf, leBytes]
  rw [hsplit]
  exact List.take_left' (by simp)

theorem take_withoutStamp {d : Addr × List UInt8} (h : 4 ≤ d.2.length) :
    (withoutStamp d).2.take 4 = d.2.take 4 := by
  have hlen : (d.2.take 4).length = 4 := by
    rw [List.length_take]
    omega
  rw [withoutStamp, List.append_assoc, List.take_left' hlen]

theorem eq_of_withoutStamp {s' : Server} {addr addr' : Addr} {dst p p' : UInt8} {synt : UInt32}
    {flag : UInt8} {mat mat' : List (List Float64)}
    (h : withoutStamp (addr, toServiceBuf (dataPkt e s dst p synt flag id mat)) =
      withoutStamp (addr', toServiceBuf (dataPkt e s' dst p' synt flag id mat'))) :
    p = p' ∧ mat.flatten.length = mat'.flatten.length := by
  constructor
  · have htake := congrArg (fun d => d.2.take 4) h
    rw [take_withoutStamp (by rw [length_toServiceBuf_dataPkt]; omega),
      take_withoutStamp (by rw [length_toServiceBuf_dataPkt]; omega),
      take_four_toServiceBuf, take_four_toServiceBuf] at htake
    have hword := congrArg leNat (List.append_inj_right htake rfl)
    rw [leNat_leBytes_of_lt (UInt16.toNat_lt _), leNat_leBytes_of_lt (UInt16.toNat_lt _)] at hword
    have hlt := p.toNat_lt
    have hlt' := p'.toNat_lt
    simp [nibbles, dataPkt, outHeader, Utils.msgOuter, Utils.versionV0, Utils.reserved,
      Nat.shiftLeft_eq] at hword
    apply UInt8.toNat_inj.mp
    omega
  · have hlen := congrArg (fun d => d.2.length) h
    simp only [withoutStamp, List.length_append, List.length_take, List.length_drop,
      length_toServiceBuf_dataPkt] at hlen
    omega

theorem rowAt?_of_one {synt : UInt32} {r : Row}
    (hone : (t.rows.filter fun r => r.iter = synt) = [r]) : t.rowAt? synt = some r := by
  rw [Table.rowAt?, ← List.head?_filter, hone]
  rfl

section Row
variable {h : Handler} {synt : UInt32} {r : Row} {k : ℕ} {values : List Float64}

/-- Read either way a record has the same values, unless it has 254 of them. -/
theorem rangeRow_of_ne (hrow : t.rowAt? synt = some r) (he : e.statement k = none)
    (hs : h.Selects id t) (hv : h.SyntValues e id t synt k values) (hne : h.dataShapes id ≠ 254) :
    values = rangeRow h id r := by
  cases hv with
  | row hr _ hscans =>
    obtain rfl := Option.some.inj (hr.symm.trans hrow)
    have hsize : h.dataShapes id < 254 := by
      have hlt := (h.dataShapes id).toNat_lt
      have hne' : (h.dataShapes id).toNat ≠ 254 := fun heq => hne (UInt8.toNat_inj.mp heq)
      have hne'' : (h.dataShapes id).toNat ≠ 255 := fun heq =>
        hscans.counted (UInt8.toNat_inj.mp heq)
      rw [UInt8.lt_iff_toNat_lt]
      change (h.dataShapes id).toNat < 254
      omega
    rw [rangeRow, if_pos hsize]
  | none hno =>
    rcases hno with hnone | hfails | hnot
    · rw [hrow] at hnone
      cases hnone
    · exact absurd he hfails
    · have hsize : h.dataShapes id = 255 := by
        by_contra hcount
        exact hnot ⟨hs, hcount⟩
      rw [rangeRow, hsize, if_neg (by decide)]

theorem length_rangeRow_ne (hrow : t.rowAt? synt = some r) (he : e.statement k = none)
    (hs : h.Selects id t) (hv : h.SyntValues e id t synt k values) (hsize : h.dataShapes id = 254) :
    values.length ≠ (rangeRow h id r).length := by
  have hempty : rangeRow h id r = [] := by rw [rangeRow, hsize, if_neg (by decide)]
  rw [hempty]
  cases hv with
  | row =>
    rw [Row.length_read, hsize]
    decide
  | none hno =>
    rcases hno with hnone | hfails | hnot
    · rw [hrow] at hnone
      cases hnone
    · exact absurd he hfails
    · exact absurd ⟨hs, by rw [hsize]; decide⟩ hnot

end Row

section Same
variable {synt : UInt32} {dst priority : UInt8} {r : Row}

theorem requestRange_cases (he : e.IgnoresBytes) (dst priority : UInt8)
    (ht : s.world.tables id = some t) (hone : t.range synt (synt + 1) = [r]) :
    (Reached e s dst (s.world.calls + 2) ∧ e.statement s.world.calls = none ∧
        s.handler.Selects id t ∧ ∃ addr, s.allClientAddr dst = some addr ∧
          (s.requestRange e id synt 1 dst priority).2.world.sent = s.world.sent ++
            [(addr, toServiceBuf (dataPkt e (s.asked 1) dst Utils.priorityHight synt
              Utils.flagSingle id [rangeRow s.handler id r]))]) ∨
      (¬ (Reached e s dst (s.world.calls + 2) ∧ e.statement s.world.calls = none ∧
          s.handler.Selects id t) ∧
        (s.requestRange e id synt 1 dst priority).2.world.sent = s.world.sent) := by
  rcases requestRange_of_one (e := e) dst priority ht hone with
    ⟨hanswer, hs, hrun⟩ | ⟨hno, err, hrun⟩
  · rw [hrun]
    have hlen : (rangeRow s.handler id r).length < 256 := length_rangeRow_lt
    have hfit : 30 + 8 * [rangeRow s.handler id r].flatten.length ≤ 65507 := by
      rw [List.flatten_singleton]
      omega
    by_cases hreach : Reached e (s.asked 1) dst ((s.asked 1).world.calls + 1)
    · obtain ⟨addr, haddr, _, hsent⟩ := sendPkt_of_reached he Utils.priorityHight synt
        Utils.flagSingle id hreach hfit
      exact .inl ⟨hreach, hanswer, hs, addr, haddr, hsent⟩
    · obtain ⟨_, hsent⟩ := sendPkt_of_not_reached he Utils.priorityHight synt Utils.flagSingle id
        [rangeRow s.handler id r] hreach
      exact .inr ⟨fun h => hreach h.1, hsent⟩
  · rw [hrun]
    exact .inr ⟨fun h => hno h.2, rfl⟩

theorem withoutStamp_eq_iff {k : ℕ} {values : List Float64} (s' : Server) (addr : Addr)
    (hrow : t.rowAt? synt = some r) (hanswer : e.statement k = none)
    (hs : s.handler.Selects id t) (hv : s.handler.SyntValues e id t synt k values) :
    withoutStamp (addr, toServiceBuf (dataPkt e s' dst Utils.priorityHight synt Utils.flagSingle id
        [rangeRow s.handler id r])) =
      withoutStamp (addr, toServiceBuf (dataPkt e s' dst priority synt Utils.flagSingle id
        [values])) ↔ priority = Utils.priorityHight ∧ s.handler.dataShapes id ≠ 254 := by
  constructor
  · intro hsame
    obtain ⟨hpriority, hlength⟩ := eq_of_withoutStamp hsame
    rw [List.flatten_singleton, List.flatten_singleton] at hlength
    exact ⟨hpriority.symm, fun hsize =>
      length_rangeRow_ne hrow hanswer hs hv hsize hlength.symm⟩
  · rintro ⟨hpriority, hsize⟩
    rw [rangeRow_of_ne hrow hanswer hs hv hsize, hpriority]

end Same

/-- The two requests of a time with one record send the same exactly when neither reaches the
requester, or the SELECT is answered, the priority is the one a range reply has and there are
not 254 values. -/
theorem sameReply_iff (e : Env) (he : e.IgnoresBytes) (s : Server) (id : UInt16) (t : Table)
    (synt : UInt32) (dst priority : UInt8) (r : Row) (ht : s.world.tables id = some t)
    (hsynt : synt ≠ Utils.timeSimuLast) (hone : (t.rows.filter fun r => r.iter = synt) = [r]) :
    SameReply e s id synt dst priority ↔ ¬ Reached e s dst (s.world.calls + 2) ∨
      e.statement s.world.calls = none ∧ s.handler.Selects id t ∧
        priority = Utils.priorityHight ∧ s.handler.dataShapes id ≠ 254 := by
  have hrow := rowAt?_of_one hone
  have hlook : lookups synt = 0 := if_neg hsynt
  have htime : lookedUp e s t synt = synt := by
    rw [lookedUp, if_neg (fun h => hsynt h.1), requestedSynt, if_neg hsynt]
  obtain ⟨values, hv, hrequest⟩ := request_cases he synt dst priority ht
  rw [htime, hlook] at hv hrequest
  have hrange := requestRange_cases he dst priority ht (range_of_one hsynt hone)
  unfold SameReply
  rcases hrequest with ⟨hreach, addr, haddr, hsent⟩ | ⟨hno, _, hsent⟩
  · rw [or_iff_right (not_not_intro hreach), hsent]
    rcases hrange with ⟨_, hanswer, hs, addr', haddr', hsent'⟩ | ⟨hnot, hsent'⟩
    · obtain rfl := Option.some.inj (haddr.symm.trans haddr')
      rw [hsent', List.map_append, List.map_append, List.append_cancel_left_eq,
        List.map_singleton, List.map_singleton, List.singleton_inj,
        withoutStamp_eq_iff (s.asked 1) addr hrow hanswer hs hv]
      exact ⟨fun h => ⟨hanswer, hs, h⟩, fun h => h.2.2⟩
    · rw [hsent']
      constructor
      · intro hsame
        have hcount := congrArg List.length hsame
        simp at hcount
      · rintro ⟨hanswer, hs, _⟩
        exact absurd ⟨hreach, hanswer, hs⟩ hnot
  · rcases hrange with ⟨hreach, _⟩ | ⟨_, hsent'⟩
    · exact absurd hreach hno
    · rw [hsent, hsent']
      exact ⟨fun _ => .inl hno, fun _ => rfl⟩

/-- A request of priority 5 has its range answered with priority 7, and of a record of 254 values
the range has none. -/
theorem priority_and_wideTable_not_sameReply :
    ¬ SameReply .reliable (holding orderedTable) 3 7 2 5 ∧
      ¬ SameReply .reliable (holding wideTable) 3 10 2 7 := by
  unfold SameReply
  decide +kernel

theorem orderedTable_sameReply_iff :
    SameReply .reliable (holding orderedTable) 3 7 2 7 ↔
      ¬ Reached .reliable (holding orderedTable) 2 ((holding orderedTable).world.calls + 2) ∨
        Env.reliable.statement (holding orderedTable).world.calls = none ∧
          (holding orderedTable).handler.Selects 3 orderedTable ∧
          7 = Utils.priorityHight ∧ (holding orderedTable).handler.dataShapes 3 ≠ 254 :=
  sameReply_iff .reliable Env.reliable_ignoresBytes (holding orderedTable) 3 orderedTable 7 2 7
    ⟨7, 0, 0, [8]⟩ rfl (by decide) (by decide)

end DRDS.Server
