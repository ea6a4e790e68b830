import DRDS.Server.Forward

/-! Publishing from the receive buffer. The `SER_PUBLISH` branch decodes the bytes after the
last subframe, and in a buffer of 4500 bytes these do not come in eights. -/
namespace DRDS.Server
open Go Wire

theorem subframe?_rest {s t : Slice UInt8} {f : SubPacket (Slice UInt8)}
    (h : subframe? s = some (f, t)) :
    ∃ i, i % 8 = 0 ∧ i ≤ s.len ∧ t.len = s.len - i ∧ t.cap = s.cap - i := by
  simp only [subframe?, Option.bind_eq_bind, Option.bind_eq_some_iff] at h
  obtain ⟨_, _, _, _, _, _, _, _, length, _, _, _, rest, hrest, heq⟩ := h
  cases Option.some.inj heq
  obtain ⟨hle, _, hcap⟩ := Slice.sliceFrom?_some hrest
  refine ⟨_, ?_, hle, Slice.len_sliceFrom? hrest, hcap⟩
  rw [toNat_offset]
  change (8 + 8 * length.toNat) % 65536 % 8 = 0
  omega

/-- What is left of a full receive buffer after the last subframe: no spare capacity, and six
bytes more than a multiple of eight. -/
theorem payload_of_listenBuf {datagram : List UInt8} {p : ServicePacket (Slice UInt8)}
    (h : fromServiceBuf? (listenBuf datagram) = some p) :
    p.payload.cap = p.payload.len ∧ p.payload.len % 8 = 6 := by
  simp only [fromServiceBuf?, Option.bind_eq_bind, Option.bind_eq_some_iff, Prod.exists] at h
  obtain ⟨pkt, hpkt, _, _, _, _, _, _, _, _, num, _, body, hbody, subs, rest, hsubs, heq⟩ := h
  cases Option.some.inj heq
  have hbuf : (listenBuf datagram).cap = 4500 := len_listenBuf datagram
  obtain ⟨_, hbytes, hcap⟩ := fromBuf?_sound hpkt
  have hlen := congrArg List.length hbytes
  rw [Slice.length_toList, len_listenBuf, List.length_append, length_headerBuf,
    Slice.length_toList] at hlen
  obtain ⟨hle, _, hcap'⟩ := Slice.sliceFrom?_some hbody
  have hlen' := Slice.len_sliceFrom? hbody
  refine repeat?_preserves (P := fun s : Slice UInt8 => s.cap = s.len ∧ s.len % 8 = 6) ?_ _ hsubs
    ⟨by omega, by omega⟩
  rintro s f t hf ⟨hfull, hmod⟩
  obtain ⟨i, hi, hile, htlen, htcap⟩ := subframe?_rest hf
  exact ⟨by omega, by omega⟩

/-- The records a subframe stands for: row `r` of its own payload, `r` ticks after its time. -/
def publishedRecords? (g : Slice.Growth) (p : ServicePacket (Slice UInt8))
    (f : SubPacket (Slice UInt8)) : Option (List Data) := do
  let rawData ← payloadBuf2Float? g f.payload
  let mat ← rowsOf? rawData f.row f.col
  some (mat.mapIdx fun r row =>
    ⟨p.simulinkTime + f.timeDiff.toUInt32 + .ofNat r, p.physicalTime, row⟩)

/-- A packet of a publisher of all its data ids, in time, with as many values as cells. -/
structure Publishable (e : Env) (s : Server) (p : ServicePacket (Slice UInt8)) : Prop where
  service : p.service = Utils.serPublish
  cells : ∀ f ∈ p.subpackets, f.row.toNat * f.col.toNat = f.length.toNat
  registered : ∀ f ∈ p.subpackets, s.isPublisherRegistered f.dataID p.src
  inTime : ∀ f ∈ p.subpackets,
    (s.queryLastSynt e f.dataID).1 ≤ p.simulinkTime + f.timeDiff.toUInt32

/-- Handling the packet comes to a normal end, and for each subframe a routine is started
that enqueues the records of that subframe. -/
def PublishDelivers (g : Slice.Growth) (e : Env) (s : Server) (p : ServicePacket (Slice UInt8)) :
    Prop :=
  (handlePkt g e p s).outcome = .returned none ∧
    ∀ f ∈ p.subpackets, ∃ r ∈ (handlePkt g e p s).spawned, ∃ records,
      publishedRecords? g p f = some records ∧
        (r.run e s).2.handler.dataBuffer f.dataID =
          (s.handler.dataBuffer f.dataID).map (· ++ records)

theorem handlePkt_publish_panics (g : Slice.Growth) (e : Env) (s : Server) {datagram : List UInt8}
    {p : ServicePacket (Slice UInt8)} (h : fromServiceBuf? (listenBuf datagram) = some p)
    (hpub : p.service = Utils.serPublish) : handlePkt g e p s = ⟨.panicked, [], s⟩ := by
  obtain ⟨hfull, hmod⟩ := payload_of_listenBuf h
  have hnone := payloadBuf2Float?_of_lt g p.payload (by omega)
  rw [handlePkt, hpub, if_neg (by decide), if_neg (by decide), if_pos rfl, hnone]

/-- No published packet is delivered: decoding what follows the last subframe slices past the
end of the receive buffer, whatever the packet says. -/
theorem not_publishDelivers (g : Slice.Growth) (e : Env) (s : Server) (datagram : List UInt8)
    (p : ServicePacket (Slice UInt8)) (h : fromServiceBuf? (listenBuf datagram) = some p)
    (hpub : p.service = Utils.serPublish) : ¬ PublishDelivers g e s p := by
  rintro ⟨hout, _⟩
  rw [handlePkt_publish_panics g e s h hpub] at hout
  cases hout

def registered : Server := (afterInit.publish .reliable 3 2 0 0 500 0 (.ofList [])).2

/-- One value for data id 3. -/
def publishPacket : ServicePacket (List UInt8) :=
  clientPacket Utils.serPublish [⟨3, 0, 1, 1, 1, [0, 0, 0, 0, 0, 0, 0xf0, 0x3f]⟩] []

theorem publishPacket_valid16 : publishPacket.Valid16 :=
  clientPacket_valid16 (by decide) (by simp [SubPacket.Valid16])

theorem publishPacket_publishable {p : ServicePacket (Slice UInt8)} {z : List UInt8}
    (h : p.visible = { publishPacket with payload := z }) : Publishable .reliable registered p := by
  have hsrc : p.src = 2 := congrArg (fun v => v.src) h
  have hsynt : p.simulinkTime = 500 := congrArg (fun v => v.simulinkTime) h
  obtain ⟨f, hpf, hf⟩ := List.map_eq_singleton_iff.mp (congrArg ServicePacket.subpackets h)
  obtain ⟨q, rfl⟩ : ∃ q, f = ⟨3, 0, 1, 1, 1, q⟩ := ⟨f.payload, SubPacket.eq_of_visible hf⟩
  have hreg : registered.isPublisherRegistered 3 2 := by decide +kernel
  have hlast : (registered.queryLastSynt .reliable 3).1 ≤ 500 + (0 : UInt16).toUInt32 := by
    decide +kernel
  refine ⟨congrArg ServicePacket.service h, ?_, ?_, ?_⟩ <;> rw [hpf, List.forall_mem_singleton]
  · rfl
  · rw [hsrc]
    exact hreg
  · rw [hsynt]
    exact hlast

theorem publishPacket_not_delivered :
    ∃ p, fromServiceBuf? (listenBuf (wire publishPacket)) = some p ∧
      Publishable .reliable registered p ∧ ¬ PublishDelivers .tight .reliable registered p := by
  obtain ⟨p, hp, hv⟩ := listenBuf_decodes publishPacket_valid16 (by decide)
  have hpub := publishPacket_publishable hv
  refine ⟨p, hp, hpub, fun hdelivers => ?_⟩
  have hout := hdelivers.1
  rw [handlePkt_publish_panics _ _ _ hp hpub.service] at hout
  cases hout

theorem publishPacket_never_delivered :
    ∃ p, fromServiceBuf? (listenBuf (wire publishPacket)) = some p ∧
      ¬ PublishDelivers .tight .reliable registered p := by
  obtain ⟨p, hp, hv⟩ := listenBuf_decodes publishPacket_valid16 (by decide)
  exact ⟨p, hp, not_publishDelivers _ _ _ _ p hp (congrArg ServicePacket.service hv)⟩

end DRDS.Server
