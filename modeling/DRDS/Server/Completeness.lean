import DRDS.Handler.HandleData
import DRDS.Handler.Reads
import DRDS.Server.ForwardTime
import DRDS.Server.Replies
import DRDS.Server.Subframes
import DRDS.Server.Subscription

/-! The records of an id that a client is sent over a run, against those the server is sent. -/
namespace DRDS.Server
open Go Wire

/-! ### Records in datagrams -/

abbrev Record := UInt32 × List Float64

def IsDataTo (c : UInt8) (d : UInt16) (buf : List UInt8) : Prop :=
  buf[1]? = some c ∧ uint16At? (.ofList buf) 22 24 = some d

instance (c : UInt8) (d : UInt16) (buf : List UInt8) : Decidable (IsDataTo c d buf) :=
  inferInstanceAs (Decidable (_ ∧ _))

/-- A live forward is one record, with all its values. -/
def asForward (c : UInt8) (d : UInt16) (r : Record) (buf : List UInt8) : ℕ :=
  if IsDataTo c d buf ∧ readTime? buf = some r.1 ∧ buf.drop 30 = payloadFloat2Buf r.2 then 1 else 0

/-- The history is a record in each row, of consecutive times. -/
def asHistory (c : UInt8) (d : UInt16) (r : Record) (buf : List UInt8) : ℕ :=
  let row := (buf[26]?.getD 0).toNat
  let width := 8 * (buf[27]?.getD 0).toNat
  if IsDataTo c d buf then
    (List.range row).countP fun i => (readTime? buf).map (· + .ofNat i) = some r.1 ∧
      (buf.drop (30 + width * i)).take width = payloadFloat2Buf r.2
  else 0

section Wire
variable {v : ServicePacket (List UInt8)} {f : SubPacket (List UInt8)}

theorem isDataTo_wire (c : UInt8) (d : UInt16) (h : v.subpackets = [f]) :
    IsDataTo c d (wire v) ↔ v.dst = c ∧ f.dataID = d := by
  have hdst : (wire v)[1]? = some v.dst := by
    simp [wire, serviceHeader, bufExt, headerBuf]
  have hid : uint16At? (.ofList (wire v)) 22 24 = some f.dataID :=
    uint16At_append (p := serviceHeader v)
      (q := leBytes 2 f.timeDiff.toNat ++ ([f.row, f.col] ++ (leBytes 2 f.length.toNat ++
        f.payload)))
      (by simp [wire, h, subBuf, subHeader]) (by simp) rfl
  rw [IsDataTo, hdst, hid, Option.some.injEq, Option.some.injEq]

theorem not_isDataTo_wire (c : UInt8) (d : UInt16) (h : v.subpackets = []) :
    ¬ IsDataTo c d (wire v) := by
  rintro ⟨_, hid⟩
  have hlen : (wire v).length = 22 := by simp [wire, h]
  have hnone : (Slice.ofList (wire v)).slice? 22 24 = none := by
    rw [Slice.slice?_eq_none, Slice.cap_ofList, hlen]
    omega
  rw [uint16At?, hnone] at hid
  cases hid

theorem drop_wire (h : v.subpackets = [f]) : (wire v).drop 30 = f.payload := by
  have hsplit : wire v = (serviceHeader v ++ subHeader f) ++ f.payload := by
    simp [wire, h, subBuf]
  rw [hsplit, List.drop_left' (by simp [subHeader])]

end Wire

section Data
variable (e : Env) (s : Server) (dst priority : UInt8) (synt : UInt32) (flag : UInt8)
  (dataID : UInt16) (mat : List (List Float64))

theorem isDataTo_dataPkt (c : UInt8) (d : UInt16) :
    IsDataTo c d (toServiceBuf (dataPkt e s dst priority synt flag dataID mat)) ↔
      dst = c ∧ dataID = d := by
  rw [toServiceBuf_dataPkt, isDataTo_wire c d (subpackets_dataWire ..)]
  rfl

theorem asForward_dataPkt (c : UInt8) (d : UInt16) (r : Record) :
    asForward c d r (toServiceBuf (dataPkt e s dst priority synt flag dataID mat)) =
      if dst = c ∧ dataID = d ∧ (synt, mat.flatten) = r then 1 else 0 := by
  have hdrop : (toServiceBuf (dataPkt e s dst priority synt flag dataID mat)).drop 30 =
      payloadFloat2Buf mat.flatten := by
    rw [toServiceBuf_dataPkt, drop_wire (subpackets_dataWire ..)]
    rfl
  have hiff : (IsDataTo c d (toServiceBuf (dataPkt e s dst priority synt flag dataID mat)) ∧
      readTime? (toServiceBuf (dataPkt e s dst priority synt flag dataID mat)) = some r.1 ∧
      (toServiceBuf (dataPkt e s dst priority synt flag dataID mat)).drop 30 =
        payloadFloat2Buf r.2) ↔ dst = c ∧ dataID = d ∧ (synt, mat.flatten) = r := by
    rw [isDataTo_dataPkt, readTime?_dataPkt, hdrop, payloadFloat2Buf_injective.eq_iff,
      Option.some.injEq, Prod.ext_iff, and_assoc]
  unfold asForward
  simp only [hiff]

end Data

/-! ### Runs -/

/-- The first records of a channel are written to their table. -/
def flush (e : Env) (id : UInt16) (n : ℕ) (s : Server) : Server :=
  match s.handler.dataBuffer id with
  | none => s
  | some queue =>
    { s with
      handler := { s.handler with
        dataBuffer := Function.update s.handler.dataBuffer id (some (queue.drop n)) }
      world := s.handler.flush e id (if queue.take n = [] then none else some (queue.take n)) s.world }

/-- A packet is handled with all that it starts, or a write buffer is flushed. -/
inductive Act where
  | packet (p : ServicePacket (Slice UInt8))
  | flush (id : UInt16) (n : ℕ)

def Act.next (g : Slice.Growth) (e : Env) : Act → Server → Server
  | .packet p, s => (handled g e p s).2
  | .flush id n, s => s.flush e id n

def runActs (g : Slice.Growth) (e : Env) (acts : List Act) (s : Server) : Server :=
  acts.foldl (fun s a => a.next g e s) s

/-- How often a datagram sent in a step is the record: what a `SER_SUBSCRIBE` packet is answered
with is history. -/
def Act.asRecord (c : UInt8) (d : UInt16) (r : Record) : Act → List UInt8 → ℕ
  | .packet p, buf => if p.service = Utils.serSubscribe then asHistory c d r buf else asForward c d r buf
  | .flush .., buf => asForward c d r buf

/-- How often a client is sent a record of the id in a step. -/
def Act.copies (g : Slice.Growth) (e : Env) (c : UInt8) (d : UInt16) (r : Record) (a : Act)
    (s : Server) : ℕ :=
  (((a.next g e s).world.sent.drop s.world.sent.length).map fun x => a.asRecord c d r x.2).sum

/-- The records of the id in a `SER_SEND` packet. -/
def recordsOf (g : Slice.Growth) (d : UInt16) (p : ServicePacket (Slice UInt8)) : List Record :=
  if p.service = Utils.serSend then
    (p.subpackets.filter fun f => f.dataID = d).filterMap fun f =>
      (payloadBuf2Float? g f.payload).map fun rawData =>
        (p.simulinkTime + f.timeDiff.toUInt32, rawData.toList)
  else []

def Act.records (g : Slice.Growth) (d : UInt16) : Act → List Record
  | .packet p => recordsOf g d p
  | .flush .. => []

def copies (g : Slice.Growth) (e : Env) (c : UInt8) (d : UInt16) (r : Record) :
    List Act → Server → ℕ
  | [], _ => 0
  | a :: acts, s => a.copies g e c d r s + copies g e c d r acts (a.next g e s)

/-- A `SER_SUBSCRIBE` packet with an offset, of a client for an id from a time on. -/
def Subscribes (p : ServicePacket (Slice UInt8)) (c : UInt8) (d : UInt16) (start : UInt32) : Prop :=
  p.service = Utils.serSubscribe ∧ p.src = c ∧ p.simulinkTime = start ∧
    ∃ f ∈ p.subpackets, f.dataID = d ∧ 0 < f.timeDiff

def InScope (start : UInt32) (size : ℕ) (r : Record) : Prop := start ≤ r.1 ∧ r.2.length = size

/-- A client that subscribes in the run, and was not subscribed, is sent each record of the shape
of the table, from its `SimulinkTime` on, as often as the server is sent it. -/
def Complete (g : Slice.Growth) (e : Env) (c : UInt8) (d : UInt16) (start : UInt32)
    (acts : List Act) (s : Server) : Prop :=
  ∀ before p after, acts = before ++ .packet p :: after → Subscribes p c d start →
    c ∉ (runActs g e before s).subscriberRegister d →
    ∀ r, InScope start (s.handler.dataShapes d).toNat r →
      copies g e c d r acts s = (acts.flatMap (Act.records g d)).count r

/-! ### When nothing is missed -/

def Late (s : Server) (d : UInt16) (synt : UInt32) : Prop :=
  0 < synt ∧ ∀ r ∈ s.world.rows d, r.iter < synt

def IsReceived (p : ServicePacket (Slice UInt8)) : Prop :=
  (p.service = Utils.serSend ∨ p.service = Utils.serSubscribe) ∧
    ∃ buf : Slice UInt8, buf.len = 4500 ∧ fromServiceBuf? buf = some p

/-- No record from the start on comes before the client is registered. After that the forwards of
a packet stay in range, its subframes of the id have no offset and matrices of all their values,
and what is sent to the client goes out. The client subscribes to the id in one subframe, or with
a time after all rows of the table. -/
def Keeps (g : Slice.Growth) (e : Env) (c : UInt8) (d : UInt16) (start : UInt32) (size : ℕ)
    (s : Server) : Act → Prop
  | .flush .. => True
  | .packet p =>
    (p.service = Utils.serSend →
      if c ∈ s.subscriberRegister d then
        (∀ f ∈ p.subpackets, inCapacity g s f = true) ∧
          ∀ f ∈ p.subpackets, f.dataID = d → Answers e s c ∧ f.timeDiff = 0 ∧
            f.payload.len = 8 * (f.row.toNat * f.col.toNat)
      else ∀ r ∈ recordsOf g d p, ¬ InScope start size r) ∧
    (p.service = Utils.serSubscribe → p.src = c → Late s d p.simulinkTime ∨
      (p.subpackets.countP fun f => f.dataID = d) ≤ if c ∈ s.subscriberRegister d then 0 else 1)

def RunKeeps (g : Slice.Growth) (e : Env) (c : UInt8) (d : UInt16) (start : UInt32) (size : ℕ) :
    Server → List Act → Prop
  | _, [] => True
  | s, a :: acts => Keeps g e c d start size s a ∧ RunKeeps g e c d start size (a.next g e s) acts

section Steps
variable {g : Slice.Growth} {e : Env} {c : UInt8} {d : UInt16}

/-! ### Forwards -/

def Routine.record? (c : UInt8) (d : UInt16) : Routine → Option Record
  | .sendPkt dst _ synt _ dataID dataMap =>
    if dst = c ∧ dataID = d then some (synt, dataMap.flatten) else none
  | _ => none

theorem mem_sendRound_fst {s : Server} {p : ServicePacket (Slice UInt8)}
    {f : SubPacket (Slice UInt8)} {x : Routine} (hx : x ∈ (sendRound g s p f).1) :
    (∃ time physicalTime rawData, x = .send f.dataID time physicalTime rawData) ∨
      ∃ dst ∈ s.subscriberRegister f.dataID, ∃ mat,
        x = .sendPkt dst p.priority p.simulinkTime p.flag f.dataID mat := by
  cases hraw : payloadBuf2Float? g f.payload with
  | none =>
    rw [sendRound, hraw] at hx
    cases hx
  | some rawData =>
    rcases (mem_sendRound hraw).mp hx with rfl | ⟨mat, _, dst, hdst, rfl⟩
    · exact .inl ⟨_, _, _, rfl⟩
    · exact .inr ⟨dst, hdst, mat, rfl⟩

theorem mem_spawned_send {s : Server} {p : ServicePacket (Slice UInt8)}
    (hsend : p.service = Utils.serSend) {x : Routine} (hx : x ∈ (handlePkt g e p s).spawned) :
    ∃ f ∈ p.subpackets, x ∈ (sendRound g s p f).1 := by
  rw [handlePkt_send_spawned g e s p hsend, List.mem_flatMap] at hx
  obtain ⟨f, hf, hx⟩ := hx
  exact ⟨f, reached_subset _ _ hf, hx⟩

theorem runRoutines_cons_sendPkt {s : Server} {dst priority flag : UInt8} {synt : UInt32}
    {id : UInt16} {mat : List (List Float64)} {o : Option String} {t : Server} (rs : List Routine)
    (h : s.numbered.transmit e dst (toServiceBuf (dataPkt e s dst priority synt flag id mat)) =
      (o, t)) : runRoutines e (.sendPkt dst priority synt flag id mat :: rs) s =
      runRoutines e rs t := by
  cases o <;> rw [runRoutines, Routine.run, sendPkt, h]

theorem record?_of_error {s t : Server} {dst priority flag : UInt8} {synt : UInt32} {id : UInt16}
    {mat : List (List Float64)} {err : String}
    (h : s.numbered.transmit e dst (toServiceBuf (dataPkt e s dst priority synt flag id mat)) =
      (some err, t))
    (hnet : ∀ k, Routine.record? c d (.sendPkt dst priority synt flag id mat) = some k →
      Answers e s c ∧ 30 + 8 * k.2.length ≤ 65507) :
    Routine.record? c d (.sendPkt dst priority synt flag id mat) = none := by
  by_contra hk
  obtain ⟨k, hk⟩ := Option.ne_none_iff_exists'.mp hk
  obtain ⟨hanswers, hlen⟩ := hnet k hk
  simp only [Routine.record?] at hk
  split_ifs at hk with hto
  cases hk
  obtain ⟨rfl, _⟩ := hto
  rw [← length_toServiceBuf_dataPkt e s dst priority synt flag id mat] at hlen
  have hnumbered : Answers e s.numbered dst := hanswers
  have hout := transmit_of_answers hnumbered hlen
  rw [h] at hout
  cases hout

/-- Goroutines that store and forward put on the wire the records they are to send to a client,
if what is sent there goes out. -/
theorem runRoutines_sent {rs : List Routine} {s : Server} (r : Record)
    (hrs : ∀ x ∈ rs, (∃ id time physicalTime rawData, x = .send id time physicalTime rawData) ∨
      ∃ dst priority synt flag id mat, x = .sendPkt dst priority synt flag id mat)
    (hnet : ∀ x ∈ rs, ∀ k, x.record? c d = some k →
      Answers e s c ∧ 30 + 8 * k.2.length ≤ 65507) :
    ∃ ds, (runRoutines e rs s).2.world.sent = s.world.sent ++ ds ∧
      (ds.map fun x => asForward c d r x.2).sum = (rs.filterMap (Routine.record? c d)).count r := by
  induction rs generalizing s with
  | nil => exact ⟨[], (List.append_nil _).symm, rfl⟩
  | cons x rs ih =>
    rw [List.forall_mem_cons] at hrs hnet
    rcases hrs.1 with ⟨id, time, physicalTime, rawData, rfl⟩ | ⟨dst, priority, synt, flag, id, mat, rfl⟩
    · obtain ⟨ds, hds, hsum⟩ := ih (s := (s.send id time physicalTime rawData).2) hrs.2 hnet.2
      exact ⟨ds, hds, hsum⟩
    · let buf := toServiceBuf (dataPkt e s dst priority synt flag id mat)
      have hrest : ∀ w : World, ∃ ds,
          (runRoutines e rs { s.numbered with world := w }).2.world.sent = w.sent ++ ds ∧
          (ds.map fun x => asForward c d r x.2).sum =
            (rs.filterMap (Routine.record? c d)).count r :=
        fun w => ih (s := { s.numbered with world := w }) hrs.2 hnet.2
      rcases transmit_cases e dst buf s.numbered with ⟨err, w, ht, _, hw⟩ | ⟨addr, w, ht, _, _, _, hw⟩
      · have hother := record?_of_error ht hnet.1
        obtain ⟨ds, hds, hsum⟩ := hrest w
        refine ⟨ds, ?_, by rw [List.filterMap_cons, hother]; exact hsum⟩
        rw [runRoutines_cons_sendPkt rs ht, hds, hw]
        rfl
      · obtain ⟨ds, hds, hsum⟩ := hrest w
        refine ⟨(addr, buf) :: ds, ?_, ?_⟩
        · rw [runRoutines_cons_sendPkt rs ht, hds, hw, List.append_assoc]
          rfl
        · rw [List.map_cons, List.sum_cons, hsum, asForward_dataPkt, List.filterMap_cons]
          by_cases hto : dst = c ∧ id = d
          · obtain ⟨rfl, rfl⟩ := hto
            simp [Routine.record?, List.count_cons, Nat.add_comm]
          · have hnot : ¬ (dst = c ∧ id = d ∧ (synt, mat.flatten) = r) :=
              fun h => hto ⟨h.1, h.2.1⟩
            rw [if_neg hnot, Nat.zero_add, Routine.record?, if_neg hto]

theorem copies_send {s : Server} {p : ServicePacket (Slice UInt8)} (hsend : p.service = Utils.serSend)
    (r : Record) (hnet : ∀ x ∈ (handlePkt g e p s).spawned, ∀ k, x.record? c d = some k →
      Answers e s c ∧ 30 + 8 * k.2.length ≤ 65507) :
    (Act.packet p).copies g e c d r s =
      ((handlePkt g e p s).spawned.filterMap (Routine.record? c d)).count r := by
  have hserver : (handlePkt g e p s).server = s := by rw [handlePkt_send hsend]
  have hkinds : ∀ x ∈ (handlePkt g e p s).spawned,
      (∃ id time physicalTime rawData, x = .send id time physicalTime rawData) ∨
        ∃ dst priority synt flag id mat, x = .sendPkt dst priority synt flag id mat := by
    intro x hx
    obtain ⟨f, _, hxf⟩ := mem_spawned_send hsend hx
    rcases mem_sendRound_fst hxf with ⟨_, _, _, rfl⟩ | ⟨_, _, _, rfl⟩
    · exact .inl ⟨_, _, _, _, rfl⟩
    · exact .inr ⟨_, _, _, _, _, _, rfl⟩
  obtain ⟨ds, hds, hsum⟩ := runRoutines_sent r hkinds hnet
  have hnext : (handled g e p s).2.world.sent = s.world.sent ++ ds := by
    rw [← hds, handled, hserver]
    rcases runRoutines e (handlePkt g e p s).spawned s with ⟨_ | _ | _, t⟩ <;> rfl
  have hread : ∀ buf, (Act.packet p).asRecord c d r buf = asForward c d r buf := by
    intro buf
    rw [Act.asRecord, hsend, if_neg (by decide)]
  rw [← hsum, Act.copies]
  simp only [Act.next, hnext, List.drop_left, hread]

theorem copies_send_of_not_mem {s : Server} {p : ServicePacket (Slice UInt8)}
    (hsend : p.service = Utils.serSend) (hc : c ∉ s.subscriberRegister d) (r : Record) :
    (Act.packet p).copies g e c d r s = 0 := by
  have hnone : ∀ x ∈ (handlePkt g e p s).spawned, x.record? c d = none := by
    intro x hx
    obtain ⟨f, _, hxf⟩ := mem_spawned_send hsend hx
    rcases mem_sendRound_fst hxf with ⟨_, _, _, rfl⟩ | ⟨dst, hdst, mat, rfl⟩
    · rfl
    · apply if_neg
      rintro ⟨rfl, rfl⟩
      exact hc hdst
  have hnil : (handlePkt g e p s).spawned.filterMap (Routine.record? c d) = [] :=
    List.filterMap_eq_nil_iff.mpr hnone
  have hcopies := copies_send (g := g) (e := e) (c := c) (d := d) (s := s) hsend r (by
    intro x hx k hk
    rw [hnone x hx] at hk
    cases hk)
  rw [hcopies, hnil, List.count_nil]

theorem filterMap_record? {s : Server} {p : ServicePacket (Slice UInt8)}
    (hsend : p.service = Utils.serSend) :
    (handlePkt g e p s).spawned.filterMap (Routine.record? c d) =
      (dataFor c d (handlePkt g e p s).spawned).map fun mat => (p.simulinkTime, mat.flatten) := by
  rw [dataFor, List.map_filterMap]
  apply List.filterMap_congr
  intro x hx
  obtain ⟨f, _, hxf⟩ := mem_spawned_send hsend hx
  rcases mem_sendRound_fst hxf with ⟨_, _, _, rfl⟩ | ⟨dst, _, mat, rfl⟩
  · rfl
  · simp only [Routine.record?, Routine.dataFor?]
    split_ifs <;> rfl

theorem len_of_whole {f : SubPacket (Slice UInt8)} {rawData : Slice Float64}
    (hlen : f.payload.len = 8 * (f.row.toNat * f.col.toNat))
    (hraw : payloadBuf2Float? g f.payload = some rawData) :
    rawData.len = f.row.toNat * f.col.toNat := by
  have hle := f.payload.len_le_cap
  obtain ⟨raw, hsome, hrlen⟩ := payloadBuf2Float?_of_le g f.payload (by omega)
  rw [hraw, Option.some.injEq] at hsome
  subst hsome
  omega

theorem record_of_rowsOf {p : ServicePacket (Slice UInt8)} {f : SubPacket (Slice UInt8)}
    {mat : List (List Float64)} (htime : f.timeDiff = 0)
    (hlen : f.payload.len = 8 * (f.row.toNat * f.col.toNat))
    (h : RowsOf (fun f => payloadBuf2Float? g f.payload) f mat) :
    (payloadBuf2Float? g f.payload).map (fun rawData =>
        (p.simulinkTime + f.timeDiff.toUInt32, rawData.toList)) =
      some (p.simulinkTime, mat.flatten) := by
  obtain ⟨raw, hraw, hrows⟩ := h
  dsimp only at hraw
  have hcells := (len_of_whole hlen hraw).symm
  obtain ⟨mat', hmat', hflat⟩ := rowsOf?_of_le hcells.le
  obtain rfl : mat = mat' := Option.some.inj (hrows.symm.trans hmat')
  rw [hcells, List.take_of_length_le raw.length_toList.le] at hflat
  rw [hraw, hflat, htime]
  simp

theorem filterMap_of_forall₂ {α β γ : Type} {R : α → β → Prop} {h : α → Option γ} {k : β → γ}
    {xs : List α} {ys : List β} (hxy : List.Forall₂ R xs ys)
    (hR : ∀ x ∈ xs, ∀ y, R x y → h x = some (k y)) : xs.filterMap h = ys.map k := by
  induction hxy with
  | nil => rfl
  | cons hr _ ih =>
    rw [List.forall_mem_cons] at hR
    rw [List.filterMap_cons, hR.1 _ hr, List.map_cons, ih hR.2]

/-- A registered client is sent each record of the id once, when the subframes are whole. -/
theorem copies_send_of_mem {s : Server} {p : ServicePacket (Slice UInt8)}
    (hsend : p.service = Utils.serSend) (hp : IsReceived p) (hc : c ∈ s.subscriberRegister d)
    (hn : (s.subscriberRegister d).Nodup) (hcap : ∀ f ∈ p.subpackets, inCapacity g s f = true)
    (hwhole : ∀ f ∈ p.subpackets, f.dataID = d → Answers e s c ∧ f.timeDiff = 0 ∧
      f.payload.len = 8 * (f.row.toNat * f.col.toNat)) (r : Record) :
    (Act.packet p).copies g e c d r s = (recordsOf g d p).count r := by
  have hrounds : ∀ f ∈ p.subpackets, (sendRound g s p f).2 = none := by
    intro f hf
    rw [← Option.isNone_iff_eq_none, isNone_sendRound_snd]
    exact hcap f hf
  have hout : (handlePkt g e p s).outcome ≠ .panicked := by
    rw [handlePkt_send_of_rounds hsend hrounds]
    simp
  have hforwards := (handlePkt_forwardsTo e hc hn hout).1 hsend
  have hrecord : ∀ f ∈ p.subpackets.filter (fun f => f.dataID = d), ∀ mat,
      RowsOf (fun f => payloadBuf2Float? g f.payload) f mat →
      (payloadBuf2Float? g f.payload).map (fun rawData =>
        (p.simulinkTime + f.timeDiff.toUInt32, rawData.toList)) =
      some (p.simulinkTime, mat.flatten) := by
    intro f hf mat hmat
    simp only [List.mem_filter, decide_eq_true_eq] at hf
    obtain ⟨_, htime, hlen⟩ := hwhole f hf.1 hf.2
    exact record_of_rowsOf htime hlen hmat
  have hsame : (handlePkt g e p s).spawned.filterMap (Routine.record? c d) = recordsOf g d p := by
    rw [filterMap_record? hsend, recordsOf, if_pos hsend, filterMap_of_forall₂ hforwards hrecord]
  rw [copies_send hsend r, hsame]
  intro x hx k hk
  have hmem : k ∈ recordsOf g d p := by
    rw [← hsame]
    exact List.mem_filterMap.mpr ⟨x, hx, hk⟩
  rw [recordsOf, if_pos hsend, List.mem_filterMap] at hmem
  obtain ⟨f, hf, hfk⟩ := hmem
  simp only [List.mem_filter, decide_eq_true_eq] at hf
  obtain ⟨hanswers, htime, hlen⟩ := hwhole f hf.1 hf.2
  obtain ⟨rawData, hraw, rfl⟩ := Option.map_eq_some_iff.mp hfk
  obtain ⟨_, buf, hbuf, hdecode⟩ := hp
  have hfits := length_le_of_decoded hdecode hf.1
  have hrlen := len_of_whole hlen hraw
  refine ⟨hanswers, ?_⟩
  rw [rawData.length_toList]
  omega

/-! ### Subscriptions -/

theorem Late.lt_queryLastSynt {s : Server} {synt : UInt32} (h : Late s d synt) :
    ¬ synt ≤ (s.queryLastSynt e d).1 := by
  intro hle
  have hpos := h.1
  rcases reached_queryLastSynt e d s.world with hzero | ⟨r, hr, hlast⟩
  · change synt ≤ (DRDS.queryLastSynt e d s.world).1 at hle
    rw [hzero] at hle
    exact UInt32.not_lt_zero (UInt32.lt_of_lt_of_le hpos hle)
  · exact UInt32.lt_irrefl _ (UInt32.lt_of_le_of_lt (UInt32.le_trans hle hlast) (h.2 r hr))

theorem subscribe_sends_noData (s : Server) {id : UInt16} {dst : UInt8} {synt : UInt32} (rate : UInt16)
    (h : ¬ (dst = c ∧ id = d) ∨ c ∉ s.subscriberRegister d ∨ Late s d synt) :
    Sends (fun x => ¬ IsDataTo c d x.2) s (s.subscribe e id dst synt rate).2 := by
  apply subscribe_sends
  · rintro addr buf - ⟨v, rfl, -, hsub⟩
    exact not_isDataTo_wire c d hsub
  · by_cases hto : dst = c ∧ id = d
    · left
      obtain ⟨rfl, rfl⟩ := hto
      rcases h with h | h | h
      · exact absurd ⟨rfl, rfl⟩ h
      · exact .inl h
      · exact .inr (UInt32.not_le.mp h.lt_queryLastSynt)
    · right
      rintro addr buf - ⟨v, f, rfl, hdst, -, -, hsub, hid⟩
      rwa [isDataTo_wire c d hsub, hdst, hid]

theorem subscriberRegister_subscribe_of_ne (s : Server) {id : UInt16} (dst : UInt8) (synt : UInt32)
    (rate : UInt16) (hid : id ≠ d) :
    (s.subscribe e id dst synt rate).2.subscriberRegister d = s.subscriberRegister d := by
  rw [subscriberRegister_subscribe]
  split_ifs
  · rfl
  · rw [addClient_apply, if_neg (Ne.symm hid)]

/-- A packet that subscribes a client to an id once, or late, sends it no data of the id. -/
theorem callLoop_sends_noData {p : ServicePacket (Slice UInt8)} {fs : List (SubPacket (Slice UInt8))}
    {s : Server} (h : p.src = c → Late s d p.simulinkTime ∨
      (fs.countP fun f => f.dataID = d) ≤ if c ∈ s.subscriberRegister d then 0 else 1) :
    Sends (fun x => ¬ IsDataTo c d x.2) s (callLoop (subscribeCall e p) fs s).2 := by
  induction fs generalizing s with
  | nil => exact .refl s
  | cons f fs ih =>
    rw [List.countP_cons] at h
    have hcall : Sends (fun x => ¬ IsDataTo c d x.2) s (subscribeCall e p f s).2 := by
      apply subscribe_sends_noData
      by_cases hto : p.src = c ∧ f.dataID = d
      · right
        rcases h hto.1 with hlate | hcount
        · exact .inr hlate
        · left
          intro hc
          rw [if_pos hc] at hcount
          simp [hto.2] at hcount
      · exact .inl hto
    rcases hrun : subscribeCall e p f s with ⟨o, t⟩
    by_cases ho : o = .returned none
    · subst ho
      rw [callLoop_cons_of_nil hrun]
      rw [hrun] at hcall
      apply hcall.trans
      apply ih
      intro hsrc
      rcases h hsrc with hlate | hcount
      · left
        refine ⟨hlate.1, ?_⟩
        rw [World.rows, hcall.tables]
        exact hlate.2
      · right
        by_cases hid : f.dataID = d
        · -- the one subframe of the id was this
          have hone : (fs.countP fun f => f.dataID = d) = 0 := by
            simp only [hid, decide_true, if_true] at hcount
            split_ifs at hcount <;> omega
          rw [hone]
          exact Nat.zero_le _
        · have hsame : t.subscriberRegister d = s.subscriberRegister d := by
            have hreg := subscriberRegister_subscribe_of_ne (e := e) s p.src p.simulinkTime
              f.timeDiff hid
            change (subscribeCall e p f s).2.subscriberRegister d = _ at hreg
            rwa [hrun] at hreg
          rw [hsame]
          exact (Nat.le_add_right _ _).trans hcount
    · rw [callLoop_cons_of_ne (by rw [hrun]; exact ho)]
      exact hcall

theorem copies_subscribe {s : Server} {p : ServicePacket (Slice UInt8)}
    (hsub : p.service = Utils.serSubscribe) (h : p.src = c → Late s d p.simulinkTime ∨
      (p.subpackets.countP fun f => f.dataID = d) ≤ if c ∈ s.subscriberRegister d then 0 else 1)
    (r : Record) : (Act.packet p).copies g e c d r s = 0 := by
  have hrun : (Act.packet p).next g e s = (callLoop (subscribeCall e p) p.subpackets s).2 := by
    rw [Act.next, handled_subscribe hsub]
  obtain ⟨ds, hds, hnone⟩ := (callLoop_sends_noData (e := e) h).sent
  rw [Act.copies, hrun, hds, List.drop_left, List.sum_eq_zero_iff_forall_eq_nat]
  intro n hn
  obtain ⟨x, hx, rfl⟩ := List.mem_map.mp hn
  rw [Act.asRecord, if_pos hsub]
  exact if_neg (hnone x hx)

/-! ### Flushes -/

theorem sent_insert (id : UInt16) (columns : ℕ) (rows : List Row) (w : World) :
    (w.insert e id columns rows).2.sent = w.sent := by
  unfold World.insert
  cases e.statement w.calls with
  | some err => rfl
  | none =>
    cases w.tables id with
    | none => rfl
    | some t =>
      dsimp only
      split_ifs <;> rfl

theorem sent_writeRange (h : Handler) (id : UInt16) (batch : List Data) (w : World) :
    (h.writeRange e id batch w).2.sent = w.sent := by
  unfold Handler.writeRange
  split_ifs
  · split
    · rfl
    · exact sent_insert ..
  · rfl

theorem flush_besides (id : UInt16) (n : ℕ) (s : Server) :
    ∃ handler world, s.flush e id n = { s with handler, world } ∧
      world.sent = s.world.sent := by
  unfold flush
  split
  · exact ⟨s.handler, s.world, rfl, rfl⟩
  · rename_i queue _
    refine ⟨_, _, rfl, ?_⟩
    split_ifs
    · rfl
    · exact sent_writeRange ..

/-! ### Whole runs -/

theorem reaches_runRoutines (rs : List Routine) (s : Server) :
    Reaches g e s (runRoutines e rs s).2 := by
  induction rs generalizing s with
  | nil => exact .refl
  | cons x rs ih =>
    have hx := Turn.run g e x s
    rw [runRoutines]
    rcases hrun : x.run e s with ⟨_ | _ | _, t⟩
    all_goals rw [hrun] at hx
    · exact .head hx (ih t)
    · exact .single hx
    · exact .single hx

theorem reaches_next (a : Act) (s : Server) : Reaches g e s (a.next g e s) := by
  cases a with
  | packet p =>
    have hrun := reaches_runRoutines (g := g) (e := e) (handlePkt g e p s).spawned
      (handlePkt g e p s).server
    have hall : Reaches g e s (runRoutines e (handlePkt g e p s).spawned
      (handlePkt g e p s).server).2 := .head (.packet p) hrun
    rw [Act.next, handled]
    rcases hout : runRoutines e (handlePkt g e p s).spawned (handlePkt g e p s).server with
      ⟨_ | _ | _, t⟩ <;>
    · rw [hout] at hall
      exact hall
  | flush id n =>
    obtain ⟨handler, world, hflush, _⟩ := flush_besides (e := e) id n s
    rw [Act.next, hflush]
    exact .single (.besides handler s.publisherRegister s.sequence world)

/-- A step sends a client the records it brings. -/
theorem Keeps.copies {start : UInt32} {size : ℕ} {s : Server} {a : Act}
    (h : Keeps g e c d start size s a) (ha : ∀ p, a = .packet p → IsReceived p)
    (hn : (s.subscriberRegister d).Nodup) {r : Record} (hr : InScope start size r) :
    a.copies g e c d r s = (a.records g d).count r := by
  cases a with
  | flush id n =>
    obtain ⟨handler, world, hflush, hsent⟩ := flush_besides (e := e) id n s
    rw [Act.copies, Act.next, hflush, hsent, List.drop_length]
    rfl
  | packet p =>
    rcases (ha p rfl).1 with hsend | hsub
    · have hsend' := h.1 hsend
      by_cases hc : c ∈ s.subscriberRegister d
      · rw [if_pos hc] at hsend'
        exact copies_send_of_mem hsend (ha p rfl) hc hn hsend'.1 hsend'.2 r
      · rw [if_neg hc] at hsend'
        have hnone : r ∉ recordsOf g d p := fun hmem => hsend' r hmem hr
        rw [copies_send_of_not_mem hsend hc, Act.records, List.count_eq_zero_of_not_mem hnone]
    · have hnone : recordsOf g d p = [] := by
        rw [recordsOf, hsub, if_neg (by decide)]
      rw [copies_subscribe hsub (h.2 hsub), Act.records, hnone, List.count_nil]

theorem RunKeeps.copies {start : UInt32} {size : ℕ} {acts : List Act} {s : Server}
    (h : RunKeeps g e c d start size s acts) (hacts : ∀ p, .packet p ∈ acts → IsReceived p)
    (hn : ∀ id, (s.subscriberRegister id).Nodup) {r : Record} (hr : InScope start size r) :
    Server.copies g e c d r acts s = (acts.flatMap (Act.records g d)).count r := by
  induction acts generalizing s with
  | nil => rfl
  | cons a acts ih =>
    have hone := h.1.copies (fun p hp => hacts p (hp ▸ List.mem_cons_self)) (hn d) hr
    have hrest := ih h.2 (fun p hp => hacts p (List.mem_cons_of_mem a hp))
      ((reaches_next a s).grows.nodup hn)
    rw [Server.copies, hone, hrest, List.flatMap_cons, List.count_append]

end Steps

/-- A run whose steps keep the subscription complete sends its client each record from the start
on as often as the server is sent it. -/
theorem complete_of_runKeeps (g : Slice.Growth) (e : Env) (c : UInt8) (d : UInt16)
    (start : UInt32) (acts : List Act) (s : Server) (hs : s.NoSubscribers)
    (hacts : ∀ p, .packet p ∈ acts → IsReceived p)
    (h : RunKeeps g e c d start (s.handler.dataShapes d).toNat s acts) :
    Complete g e c d start acts s := by
  intro _ _ _ _ _ _ r hr
  apply h.copies hacts _ hr
  intro id
  rw [hs id]
  exact List.nodup_nil

def subscriptionPacket : ServicePacket (List UInt8) :=
  clientPacket Utils.serSubscribe [⟨3, 1, 0, 0, 0, []⟩] []

theorem subscriptionPacket_decodes :
    ∃ q, fromServiceBuf? (listenBuf (wire subscriptionPacket)) = some q ∧ IsReceived q := by
  have hvalid : subscriptionPacket.Valid16 :=
    clientPacket_valid16 (by decide) (by simp [SubPacket.Valid16])
  obtain ⟨q, hq, hv⟩ := listenBuf_decodes hvalid (by decide)
  exact ⟨q, hq, .inr (congrArg ServicePacket.service hv), _, len_listenBuf _, hq⟩

theorem valuePacket_decodes :
    ∃ p, fromServiceBuf? (listenBuf (wire valuePacket)) = some p ∧ IsReceived p := by
  obtain ⟨p, hp, hv⟩ := listenBuf_decodes valuePacket_valid16 (by decide)
  exact ⟨p, hp, .inl (congrArg ServicePacket.service hv), _, len_listenBuf _, hp⟩

/-- A record that is stored before its client subscribes is never sent to it. -/
theorem storedRecord_not_sent : ∃ p q,
    fromServiceBuf? (listenBuf (wire valuePacket)) = some p ∧
    fromServiceBuf? (listenBuf (wire subscriptionPacket)) = some q ∧
    ¬ Complete .tight .reliable 2 3 500 [.packet p, .flush 3 1, .packet q] afterInit := by
  obtain ⟨p, hp, _⟩ := valuePacket_decodes
  obtain ⟨q, hq, _⟩ := subscriptionPacket_decodes
  let r : Record := (500, [0x3ff0000000000000])
  have hall : ((fromServiceBuf? (listenBuf (wire valuePacket))).any fun p =>
      (fromServiceBuf? (listenBuf (wire subscriptionPacket))).any fun q =>
        copies .tight .reliable 2 3 r [.packet p, .flush 3 1, .packet q] afterInit = 0 ∧
        (recordsOf .tight 3 p ++ recordsOf .tight 3 q).count r = 1 ∧
        q.service = Utils.serSubscribe ∧ q.src = 2 ∧ q.simulinkTime = 500 ∧
        (∃ f ∈ q.subpackets, f.dataID = 3 ∧ 0 < f.timeDiff) ∧
        2 ∉ (runActs .tight .reliable [.packet p, .flush 3 1] afterInit).subscriberRegister 3) =
      true := by decide +kernel
  rw [hp, Option.any_some, hq, Option.any_some, decide_eq_true_eq] at hall
  obtain ⟨hcopies, hcount, hservice, hsrc, htime, hframe, hnew⟩ := hall
  refine ⟨p, q, hp, hq, fun hcomplete => ?_⟩
  have hsent := hcomplete [.packet p, .flush 3 1] q [] rfl ⟨hservice, hsrc, htime, hframe⟩ hnew r
    ⟨UInt32.le_refl 500, by decide⟩
  rw [hcopies] at hsent
  have hrecords : [Act.packet p, .flush 3 1, .packet q].flatMap (Act.records .tight 3) =
      recordsOf .tight 3 p ++ recordsOf .tight 3 q := by simp [Act.records]
  rw [hrecords, hcount] at hsent
  cases hsent

/-- A record that comes after the subscription is. -/
theorem laterRecord_sent : ∃ p q,
    fromServiceBuf? (listenBuf (wire valuePacket)) = some p ∧
    fromServiceBuf? (listenBuf (wire subscriptionPacket)) = some q ∧
    Complete .tight .reliable 2 3 500 [.packet q, .packet p] afterInit := by
  obtain ⟨p, hp, hprec⟩ := valuePacket_decodes
  obtain ⟨q, hq, hqrec⟩ := subscriptionPacket_decodes
  have hall : ((fromServiceBuf? (listenBuf (wire valuePacket))).any fun p =>
      (fromServiceBuf? (listenBuf (wire subscriptionPacket))).any fun q =>
        (q.subpackets.countP fun f => f.dataID = 3) ≤ 1 ∧ q.service = Utils.serSubscribe ∧
        p.service = Utils.serSend ∧
        2 ∈ ((Act.packet q).next .tight .reliable afterInit).subscriberRegister 3 ∧
        ((Act.packet q).next .tight .reliable afterInit).allClientAddr 2 =
          some ⟨0x7f000001, 20001⟩ ∧
        (∀ f ∈ p.subpackets,
          inCapacity .tight ((Act.packet q).next .tight .reliable afterInit) f = true) ∧
        ∀ f ∈ p.subpackets, f.timeDiff = 0 ∧
          f.payload.len = 8 * (f.row.toNat * f.col.toNat)) = true := by decide +kernel
  rw [hp, Option.any_some, hq, Option.any_some, decide_eq_true_eq] at hall
  obtain ⟨hcount, hqsub, hpsend, hmem, haddr, hcap, hwhole⟩ := hall
  have hanswers : Answers .reliable ((Act.packet q).next .tight .reliable afterInit) 2 :=
    ⟨_, haddr, fun k => ⟨rfl, fun buf hbuf => by simp [Env.reliable, hbuf]⟩⟩
  refine ⟨p, q, hp, hq, complete_of_runKeeps .tight .reliable 2 3 500 [.packet q, .packet p]
    afterInit (fun _ => rfl) ?_ ⟨⟨?_, ?_⟩, ⟨?_, ?_⟩, trivial⟩⟩
  · intro k hk
    rcases List.mem_pair.mp hk with hk | hk
    · cases hk
      exact hqrec
    · cases hk
      exact hprec
  · intro hsend
    rw [hqsub] at hsend
    cases hsend
  · intro _ _
    exact .inr hcount
  · intro _
    rw [if_pos hmem]
    exact ⟨hcap, fun f hf _ => ⟨hanswers, hwhole f hf⟩⟩
  · intro hsub
    rw [hpsend] at hsub
    cases hsub

end DRDS.Server
