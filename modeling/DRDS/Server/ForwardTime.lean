import DRDS.Server.Forward

/-! The two copies of a subframe, one for the record table and one for each subscriber, and
the times they carry. -/
namespace DRDS.Server
open Go

/-! ### What a routine leaves behind -/

/-- What no schedule changes between the start of a routine and its run. -/
structure SameConfig (s t : Server) : Prop where
  addr : t.allClientAddr = s.allClientAddr
  shapes : t.handler.dataShapes = s.handler.dataShapes
  channels : ∀ id, (t.handler.dataBuffer id).isSome = (s.handler.dataBuffer id).isSome

theorem SameConfig.refl (s : Server) : SameConfig s s := ⟨rfl, rfl, fun _ => rfl⟩

/-- Run at some later time, the routine enqueues a record that its table takes. -/
def Stores (s : Server) (r : Routine) (id : UInt16) (data : Data) : Prop :=
  s.handler.Shaped id data ∧ ∃ e t queue, SameConfig s t ∧
    t.handler.dataBuffer id = some queue ∧
    (r.run e t).2.handler.dataBuffer id = some (queue ++ [data])

/-- Run at some later time, the routine puts a datagram on the wire. -/
def Emits (s : Server) (r : Routine) (buf : List UInt8) : Prop :=
  ∃ e t addr, SameConfig s t ∧ (r.run e t).2.world.sent = t.world.sent ++ [(addr, buf)]

theorem stores_send {s : Server} {id : UInt16} {time physicalTime : UInt32}
    {rawData : List Float64} {data : Data} :
    Stores s (.send id time physicalTime rawData) id data ↔
      data = ⟨time, physicalTime, rawData⟩ ∧ s.handler.Shaped id data ∧
        (s.handler.dataBuffer id).isSome := by
  constructor
  · rintro ⟨hshape, e, t, queue, hc, hq, hrun⟩
    refine ⟨?_, hshape, by rw [← hc.channels, hq]; rfl⟩
    simp only [Routine.run, send, writeToBuffer, Handler.writeToBuffer, hq] at hrun
    split_ifs at hrun with hfull
    · rw [hq] at hrun
      simp at hrun
    · simpa [eq_comm] using hrun
  · rintro ⟨rfl, hshape, hchan⟩
    -- a schedule that has just emptied the channel
    let t := { s with handler := { s.handler with
      dataBuffer := Function.update s.handler.dataBuffer id (some []) } }
    refine ⟨hshape, .reliable, t, [], ⟨rfl, rfl, fun i => ?_⟩, Function.update_self .., ?_⟩
    · by_cases hi : i = id
      · subst hi
        simp [t, hchan]
      · simp [t, hi]
    · simp [t, Routine.run, send, writeToBuffer, Handler.writeToBuffer, Utils.buffLen]

theorem emits_send {s : Server} {id : UInt16} {time physicalTime : UInt32}
    {rawData : List Float64} {buf : List UInt8} :
    ¬ Emits s (.send id time physicalTime rawData) buf := by
  rintro ⟨e, t, addr, _, hrun⟩
  change t.world.sent = _ at hrun
  simp at hrun

theorem stores_sendPkt {s : Server} {dst priority : UInt8} {synt : UInt32} {flag : UInt8}
    {dataID id : UInt16} {mat : List (List Float64)} {data : Data} :
    ¬ Stores s (.sendPkt dst priority synt flag dataID mat) id data := by
  rintro ⟨_, e, t, queue, _, hq, hrun⟩
  have hkeep : (Routine.run e (.sendPkt dst priority synt flag dataID mat) t).2.handler =
      t.handler := by
    rcases transmit_cases e dst (toServiceBuf (dataPkt e t dst priority synt flag dataID mat))
      t.numbered with ⟨err, w, ht, _⟩ | ⟨addr, w, ht, _⟩ <;>
    · simp only [Routine.run, sendPkt, ht]
      rfl
  rw [hkeep, hq] at hrun
  simp at hrun

theorem emits_sendPkt {s : Server} {dst priority : UInt8} {synt : UInt32} {flag : UInt8}
    {dataID : UInt16} {mat : List (List Float64)} {buf : List UInt8} :
    Emits s (.sendPkt dst priority synt flag dataID mat) buf →
      (s.allClientAddr dst).isSome ∧ 30 + 8 * mat.flatten.length ≤ 65507 ∧
        readTime? buf = some synt := by
  rintro ⟨e, t, addr, hc, hrun⟩
  rcases transmit_cases e dst (toServiceBuf (dataPkt e t dst priority synt flag dataID mat))
    t.numbered with ⟨err, w, ht, _, hw⟩ | ⟨addr', w, ht, _, haddr, hfit, hw⟩
  · simp only [Routine.run, sendPkt, ht, hw] at hrun
    change t.world.sent = _ at hrun
    simp at hrun
  · simp only [Routine.run, sendPkt, ht, hw] at hrun
    have hbuf := (Prod.mk.inj (List.cons.inj (List.append_cancel_left hrun)).1).2
    change t.allClientAddr dst = some addr' at haddr
    rw [length_toServiceBuf_dataPkt] at hfit
    rw [← hc.addr, haddr, ← hbuf]
    exact ⟨rfl, hfit, readTime?_dataPkt ..⟩

theorem exists_emits {s : Server} {dst : UInt8} (priority : UInt8) (synt : UInt32) (flag : UInt8)
    (dataID : UInt16) (mat : List (List Float64)) (haddr : (s.allClientAddr dst).isSome)
    (hfit : 30 + 8 * mat.flatten.length ≤ 65507) :
    ∃ buf, Emits s (.sendPkt dst priority synt flag dataID mat) buf := by
  obtain ⟨addr, ha⟩ := Option.isSome_iff_exists.mp haddr
  let buf := toServiceBuf (dataPkt .reliable s dst priority synt flag dataID mat)
  have hlen : buf.length ≤ 65507 := by
    rw [length_toServiceBuf_dataPkt]
    exact hfit
  refine ⟨buf, .reliable, s, addr, .refl s, ?_⟩
  change (s.numbered.transmit .reliable dst buf).2.world.sent = _
  rw [transmit_reliable (s := s.numbered) ha hlen]
  rfl

/-! ### Rounds of the loop -/

theorem mem_sendRound {g : Slice.Growth} {s : Server} {p : ServicePacket (Slice UInt8)}
    {f : SubPacket (Slice UInt8)} {rawData : Slice Float64} {r : Routine}
    (h : payloadBuf2Float? g f.payload = some rawData) :
    r ∈ (sendRound g s p f).1 ↔
      r = .send f.dataID (p.simulinkTime + f.timeDiff.toUInt32) p.physicalTime rawData.toList ∨
      ∃ mat, rowsOf? rawData f.row f.col = some mat ∧
        ∃ dst ∈ s.subscriberRegister f.dataID,
          r = .sendPkt dst p.priority p.simulinkTime p.flag f.dataID mat := by
  cases hrows : rowsOf? rawData f.row f.col with
  | some mat =>
    rw [sendRound_of_rows h hrows]
    simp [eq_comm]
  | none =>
    rw [sendRound, h]
    dsimp only
    cases hf : s.forward? p f rawData with
    | none => simp
    | some forwards =>
      -- no subscriber, so no row was sliced
      have hs : s.subscriberRegister f.dataID = [] := by
        have hsome : (s.forward? p f rawData).isSome := by rw [hf]; rfl
        rw [forward?_isSome, ← rowsOf?_isSome, hrows] at hsome
        simpa using hsome
      have hnil : forwards = [] := by
        rw [forward?, hs] at hf
        cases hf
        rfl
      simp [hnil]

/-- A round of a `SER_SEND` packet goes through: nobody is subscribed, or the rows lie within
the capacity of the decoded payload. -/
def inCapacity (g : Slice.Growth) (s : Server) (f : SubPacket (Slice UInt8)) : Bool :=
  (payloadBuf2Float? g f.payload).any fun rawData =>
    s.subscriberRegister f.dataID = [] ∨ f.row.toNat * f.col.toNat ≤ rawData.cap

theorem isNone_sendRound_snd {g : Slice.Growth} {s : Server} {p : ServicePacket (Slice UInt8)}
    {f : SubPacket (Slice UInt8)} : (sendRound g s p f).2.isNone = inCapacity g s f := by
  cases h : payloadBuf2Float? g f.payload with
  | none => simp [sendRound, inCapacity, h]
  | some rawData =>
    rw [Bool.eq_iff_iff, Option.isNone_iff_eq_none, sendRound_snd h, inCapacity, h]
    simp

/-- The data id has a channel, and its table takes as many values as the subframe brings. -/
def Recorded (s : Server) (f : SubPacket (Slice UInt8)) : Prop :=
  (s.handler.dataBuffer f.dataID).isSome ∧
    f.length.toNat % 8192 = (s.handler.dataShapes f.dataID).toNat

/-- A subscriber has an address, and the system takes a datagram with the rows. -/
def Forwarded (s : Server) (f : SubPacket (Slice UInt8)) : Prop :=
  (∃ dst ∈ s.subscriberRegister f.dataID, (s.allClientAddr dst).isSome) ∧
    f.row.toNat * f.col.toNat ≤ 8184

/-- A packet starts what the rounds of its subframes start, and the record stored and the
datagrams sent in one round are of the same time. -/
structure TimesAgree (g : Slice.Growth) (e : Env) (s : Server) (p : ServicePacket (Slice UInt8)) :
    Prop where
  rounds : (handlePkt g e p s).spawned =
    (reached (sendRound g s p) p.subpackets).flatMap fun f => (sendRound g s p f).1
  agree : ∀ f ∈ reached (sendRound g s p) p.subpackets, ∀ r ∈ (sendRound g s p f).1,
    ∀ r' ∈ (sendRound g s p f).1, ∀ data buf, Stores s r f.dataID data → Emits s r' buf →
      readTime? buf = some data.iter

theorem length_rowsOf {rawData : Slice Float64} {row col : UInt8} {mat : List (List Float64)}
    (h : rowsOf? rawData row col = some mat) : mat.flatten.length = row.toNat * col.toNat := by
  obtain ⟨hlen, hrect⟩ := rowsOf?_some h
  rw [length_flatten_of_rectangular hrect, hlen]

section Copies
variable {g : Slice.Growth} {s : Server} {buf : Slice UInt8} {p : ServicePacket (Slice UInt8)}
  {f : SubPacket (Slice UInt8)}

theorem exists_copies (h : fromServiceBuf? buf = some p) (hf : f ∈ p.subpackets)
    (hcap : inCapacity g s f = true) (hrec : Recorded s f) (hfwd : Forwarded s f) :
    ∃ r ∈ (sendRound g s p f).1, ∃ r' ∈ (sendRound g s p f).1, ∃ data b,
      Stores s r f.dataID data ∧ Emits s r' b ∧
      data.iter = p.simulinkTime + f.timeDiff.toUInt32 ∧ readTime? b = some p.simulinkTime := by
  obtain ⟨rawData, hraw, hlen⟩ := payload_of_decoded h g hf
  obtain ⟨⟨dst, hdst, haddr⟩, hsize⟩ := hfwd
  obtain ⟨mat, hmat⟩ : ∃ mat, rowsOf? rawData f.row f.col = some mat := by
    rw [← Option.isSome_iff_exists, rowsOf?_isSome]
    simpa [inCapacity, hraw, List.ne_nil_of_mem hdst] using hcap
  let time := p.simulinkTime + f.timeDiff.toUInt32
  have hstore : Stores s (.send f.dataID time p.physicalTime rawData.toList) f.dataID
      ⟨time, p.physicalTime, rawData.toList⟩ := by
    refine stores_send.mpr ⟨rfl, ?_, hrec.1⟩
    rw [Handler.Shaped, Slice.length_toList, hlen]
    exact hrec.2
  have hfit : 30 + 8 * mat.flatten.length ≤ 65507 := by
    rw [length_rowsOf hmat]
    omega
  obtain ⟨b, hb⟩ := exists_emits p.priority p.simulinkTime p.flag f.dataID mat haddr hfit
  exact ⟨_, (mem_sendRound hraw).mpr (.inl rfl), _,
    (mem_sendRound hraw).mpr (.inr ⟨mat, hmat, dst, hdst, rfl⟩), _, b, hstore, hb, rfl,
    (emits_sendPkt hb).2.2⟩

theorem copies_time (h : fromServiceBuf? buf = some p) (hf : f ∈ p.subpackets) {r r' : Routine}
    (hr : r ∈ (sendRound g s p f).1) (hr' : r' ∈ (sendRound g s p f).1) {data : Data}
    {b : List UInt8} (hstore : Stores s r f.dataID data) (hemit : Emits s r' b) :
    inCapacity g s f = true ∧ Recorded s f ∧ Forwarded s f ∧
      data.iter = p.simulinkTime + f.timeDiff.toUInt32 ∧ readTime? b = some p.simulinkTime := by
  obtain ⟨rawData, hraw, hlen⟩ := payload_of_decoded h g hf
  rcases (mem_sendRound hraw).mp hr with rfl | ⟨mat, _, dst, _, rfl⟩
  · rcases (mem_sendRound hraw).mp hr' with rfl | ⟨mat, hmat, dst, hdst, rfl⟩
    · exact absurd hemit emits_send
    · obtain ⟨hdata, hshape, hchan⟩ := stores_send.mp hstore
      obtain ⟨haddr, hfit, htime⟩ := emits_sendPkt hemit
      have hrows : f.row.toNat * f.col.toNat ≤ rawData.cap :=
        rowsOf?_isSome.mp (by rw [hmat]; rfl)
      rw [length_rowsOf hmat] at hfit
      rw [hdata, Handler.Shaped, Slice.length_toList, hlen] at hshape
      refine ⟨by simp [inCapacity, hraw, hrows], ⟨hchan, hshape⟩, ⟨⟨dst, hdst, haddr⟩, by omega⟩,
        by rw [hdata], htime⟩
  · exact absurd hstore stores_sendPkt

end Copies

/-- Stored and forwarded copies agree on the time exactly when no subframe that is both
stored and forwarded has an offset: the forward drops it. -/
theorem timesAgree_iff (g : Slice.Growth) (e : Env) (s : Server) (buf : Slice UInt8)
    (p : ServicePacket (Slice UInt8)) (h : fromServiceBuf? buf = some p)
    (hsend : p.service = Utils.serSend) :
    TimesAgree g e s p ↔ ∀ f ∈ p.subpackets.takeWhile (inCapacity g s),
      Recorded s f → Forwarded s f → f.timeDiff = 0 := by
  have hreach : ∀ f, f ∈ p.subpackets.takeWhile (inCapacity g s) ↔
      f ∈ reached (sendRound g s p) p.subpackets ∧ inCapacity g s f = true := by
    intro f
    rw [← isNone_sendRound_snd (p := p), Option.isNone_iff_eq_none, mem_reached]
    simp only [isNone_sendRound_snd]
  constructor
  · intro hagree f hf hrec hfwd
    obtain ⟨hfr, hcap⟩ := (hreach f).mp hf
    obtain ⟨r, hr, r', hr', data, b, hstore, hemit, hiter, htime⟩ :=
      exists_copies h (reached_subset _ _ hfr) hcap hrec hfwd
    have heq := hagree.agree f hfr r hr r' hr' data b hstore hemit
    rw [htime, hiter] at heq
    have hzero : f.timeDiff.toUInt32 = 0 := by simpa using heq
    exact UInt16.toUInt32_inj.mp hzero
  · intro hzero
    refine ⟨handlePkt_send_spawned g e s p hsend, fun f hfr r hr r' hr' data b hstore hemit => ?_⟩
    obtain ⟨hcap, hrec, hfwd, hiter, htime⟩ :=
      copies_time h (reached_subset _ _ hfr) hr hr' hstore hemit
    have hoff := hzero f ((hreach f).mpr ⟨hfr, hcap⟩) hrec hfwd
    rw [htime, hiter, hoff]
    simp

/-- One value of data id 3, four ticks after the header time. -/
def offsetPacket : ServicePacket (List UInt8) :=
  clientPacket Utils.serSend [⟨3, 4, 1, 1, 1, [0, 0, 0, 0, 0, 0, 0xf0, 0x3f]⟩] []

theorem offsetPacket_valid16 : offsetPacket.Valid16 :=
  clientPacket_valid16 (by decide) (by simp [SubPacket.Valid16])

/-- The record is of time 504, the datagram of time 500. -/
theorem offsetPacket_times_differ :
    ∃ p, fromServiceBuf? (listenBuf (wire offsetPacket)) = some p ∧ p.service = Utils.serSend ∧
      ¬ TimesAgree .tight .reliable subscribed p := by
  obtain ⟨p, hp, hv⟩ := listenBuf_decodes offsetPacket_valid16 (by decide)
  refine ⟨p, hp, congrArg ServicePacket.service hv, fun hagree => ?_⟩
  obtain ⟨f, hpf, hf⟩ := List.map_eq_singleton_iff.mp (congrArg ServicePacket.subpackets hv)
  obtain ⟨q, rfl⟩ : ∃ q, f = ⟨3, 4, 1, 1, 1, q⟩ := ⟨f.payload, SubPacket.eq_of_visible hf⟩
  have hmem : ⟨3, 4, 1, 1, 1, q⟩ ∈ p.subpackets := by simp [hpf]
  obtain ⟨rawData, hraw, hlen⟩ := payload_of_decoded hp .tight hmem
  have hcap : inCapacity .tight subscribed ⟨3, 4, 1, 1, 1, q⟩ = true := by
    have hone : rawData.len = 1 := hlen
    have hle : 1 ≤ rawData.cap := hone ▸ rawData.len_le_cap
    simp [inCapacity, hraw, hle]
  have hrec : Recorded subscribed ⟨3, 4, 1, 1, 1, q⟩ := by
    have hchan : (subscribed.handler.dataBuffer 3).isSome := by decide +kernel
    have hshape : 1 = (subscribed.handler.dataShapes 3).toNat := by decide +kernel
    exact ⟨hchan, hshape⟩
  have hfwd : Forwarded subscribed ⟨3, 4, 1, 1, 1, q⟩ := by
    have hsub : 2 ∈ subscribed.subscriberRegister 3 := by decide +kernel
    have haddr : (subscribed.allClientAddr 2).isSome := by decide +kernel
    have hsize : 1 * 1 ≤ 8184 := by decide
    exact ⟨⟨2, hsub, haddr⟩, hsize⟩
  obtain ⟨r, hr, r', hr', data, b, hstore, hemit, hiter, htime⟩ :=
    exists_copies hp hmem hcap hrec hfwd
  have heq := hagree.agree _ (by simp [hpf, reached]) r hr r' hr' data b hstore hemit
  rw [htime, hiter] at heq
  simp at heq

theorem offsetPacket_timesAgree_iff :
    ∃ p, fromServiceBuf? (listenBuf (wire offsetPacket)) = some p ∧
      (TimesAgree .tight .reliable subscribed p ↔
        ∀ f ∈ p.subpackets.takeWhile (inCapacity .tight subscribed),
          Recorded subscribed f → Forwarded subscribed f → f.timeDiff = 0) := by
  obtain ⟨p, hp, hv⟩ := listenBuf_decodes offsetPacket_valid16 (by decide)
  exact ⟨p, hp, timesAgree_iff _ _ _ _ p hp (congrArg ServicePacket.service hv)⟩

end DRDS.Server
