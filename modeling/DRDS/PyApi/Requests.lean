import DRDS.Handler.WriteSynt
import DRDS.PyApi.Interchange
import DRDS.Server.Requests

/-! What a client reads back: a request for one record, after any run of the buffer that stores them. -/
namespace DRDS
open Go Batch

section Stores
variable {e : Env} {id : UInt16} {evs : List Event} {s t : Pipe} {w w' : World}

theorem Handler.Fits.of_shapes {h h' : Handler} (hw : h.Fits id w) (hshapes : h'.dataShapes = h.dataShapes) :
    h'.Fits id w := by
  unfold Fits
  rw [hshapes]
  exact hw

theorem Handler.flush_fits {h : Handler} (hw : h.Fits id w) (out : Option (List Data)) :
    h.Fits id (h.flush e id out w) := by
  cases out with
  | none => exact hw
  | some b => exact writeRange_fits hw b

theorem Handler.writeRange_of_shaped {h : Handler} (he : ∀ k, e.statement k = none) (hw : h.Fits id w)
    {b : List Data} (hb : ∀ d ∈ b, h.Shaped id d) : (h.writeRange e id b w).1 = none := by
  unfold writeRange
  split_ifs
  · rw [h.mapM_fillin id _ hb]
    have hfits : h.Fits id w.tick := hw
    exact (World.insert_of_fits he hfits _).1
  · rfl

theorem Pipe.insertsSucceed_of_fits (he : ∀ k, e.statement k = none) (hw : s.handler.Fits id w) :
    InsertsSucceed e id evs (s, w) := by
  induction evs generalizing s w with
  | nil => trivial
  | cons ev evs ih =>
    intro t out hstep
    refine ⟨fun b _ hb => Handler.writeRange_of_shaped he hw hb, ih ?_⟩
    exact (Handler.flush_fits hw out).of_shapes (step?_config hstep).2

theorem Pipe.run?_fits (hrun : run? e id evs (s, w) = some (t, w')) (hw : s.handler.Fits id w) :
    t.handler.dataShapes = s.handler.dataShapes ∧ s.handler.Fits id w' := by
  induction evs generalizing s w with
  | nil =>
    cases hrun
    exact ⟨rfl, hw⟩
  | cons ev evs ih =>
    simp only [run?, Option.bind_eq_bind, Option.bind_eq_some_iff] at hrun
    obtain ⟨⟨u, out⟩, hstep, hrest⟩ := hrun
    have hshapes := (step?_config hstep).2
    obtain ⟨hsame, hfits⟩ := ih hrest ((Handler.flush_fits hw out).of_shapes hshapes)
    exact ⟨hsame.trans hshapes, hfits.of_shapes hshapes.symm⟩

end Stores

/-! ### What is answered -/

/-- The time and the values a request is to be answered with, out of the records of a table: those of the
first record of the time, and the greatest time there is if the last is asked for. -/
def answer (records : List Data) (synt : UInt32) : UInt32 × List Float64 :=
  let time := if synt = Utils.timeSimuLast then ((records.map Data.iter).max?).getD 0 else synt
  (time, ((records.find? (·.iter = time)).map Data.value).getD [])

theorem answer_of_table {w : World} {id : UInt16} {t : Table} (ht : w.tables id = some t) (synt : UInt32) :
    answer (w.records id) synt = (Server.requestedSynt t synt,
      ((t.rowAt? (Server.requestedSynt t synt)).map Row.values).getD []) := by
  have htimes : (w.records id).map Data.iter = t.rows.map Row.iter := by
    rw [World.records, ht]
    simp [Row.data, Function.comp_def]
  have htime : (if synt = Utils.timeSimuLast then (((w.records id).map Data.iter).max?).getD 0 else synt) =
      Server.requestedSynt t synt := by
    rw [htimes]
    rfl
  unfold answer
  rw [htime]
  dsimp only
  rw [World.records, ht, Option.map_some, Option.getD_some, List.find?_map, Option.map_map]
  rfl

theorem Handler.syntValues_eq {e : Env} {h : Handler} {id : UInt16} {t : Table} {synt : UInt32}
    {k : ℕ} {values : List Float64} (hv : h.SyntValues e id t synt k values) (he : e.statement k = none)
    (hs : h.Scans id t) (hrows : ∀ r ∈ t.rows, r.values.length = (h.dataShapes id).toNat) :
    values = ((t.rowAt? synt).map Row.values).getD [] := by
  cases hv with
  | row hr =>
    rw [hr]
    exact Row.read_of_length (hrows _ (Table.mem_of_rowAt? hr).1)
  | none hno =>
    rcases hno with hnone | hfails | hnot
    · rw [hnone]
      rfl
    · exact absurd he hfails
    · exact absurd hs hnot

namespace PyApi
open Server (fromServiceBuf? listenBuf handlePkt requestCall callLoop requestedSynt lookedUp lookups
  request_cases toServiceBuf dataPkt)

section Exchange
variable {e : Env} {s : Server} {api : API} {id : UInt16} {synt : UInt32} {t : Table}

theorem API.request_handled (g : Slice.Growth) (e : Env) (s : Server) (api : API)
    (physicalTime priority : ℕ) (id : UInt16) (synt : UInt32) :
    ∃ pkt buf p, api.pkt? physicalTime (.request id.toNat synt.toNat 0 priority) = some pkt ∧
      pkt.pkt2Buf? = some buf ∧ fromServiceBuf? (listenBuf buf) = some p ∧ p.src = .ofNat api.idClient ∧
      (handlePkt g e p s).server = (s.request e id synt p.src p.priority).2 := by
  let pkt := api.servicePkt physicalTime 1 id.toNat synt.toNat 0 priority
  have hcounted : pkt.Counted := by
    refine ⟨rfl, fun q hq => ?_⟩
    rw [List.mem_singleton.mp hq]
    rfl
  have hlen : pkt.bytes.length ≤ 4500 := by
    change (API.servicePkt ..).bytes.length ≤ 4500
    rw [API.servicePkt, Packet.init, Packet.length_bytes_single]
    change 30 + 8 * 0 ≤ 4500
    decide
  obtain ⟨p, hp, hv⟩ := Packet.listenBuf_bytes hcounted hlen
  obtain ⟨f, hf, hframe⟩ :=
    List.map_eq_singleton_iff.mp (congrArg Server.ServicePacket.subpackets hv)
  have hservice : p.service = Utils.serRequest := congrArg Server.ServicePacket.service hv
  have hsrc : p.src = .ofNat api.idClient := congrArg (fun v => v.src) hv
  have hsynt : p.simulinkTime = .ofNat synt.toNat := congrArg (fun v => v.simulinkTime) hv
  have hid : f.dataID = .ofNat id.toNat := congrArg Server.SubPacket.dataID hframe
  have htime : f.timeDiff = 0 := congrArg Server.SubPacket.timeDiff hframe
  rw [UInt32.ofNat_toNat] at hsynt
  rw [UInt16.ofNat_toNat] at hid
  refine ⟨pkt, pkt.bytes, p, rfl, Packet.pkt2Buf?_of_counted hcounted, hp, hsrc, ?_⟩
  rw [handlePkt, if_neg (by rw [hservice]; decide), if_pos hservice, hf]
  simp only [callLoop, requestCall, htime, if_true, hid, hsynt]
  rcases s.request e id synt p.src p.priority with ⟨_ | err, s'⟩
  · rfl
  · rfl

/-- The reply to `request` is what the waiting loop returns, with the record of the time. -/
theorem API.request_exchange (g : Slice.Growth) (he : e.IgnoresBytes) (physicalTime priority : ℕ)
    (ht : s.world.tables id = some t) (hs : s.handler.Scans id t) (hdb : ∀ k, e.statement k = none)
    (hrows : ∀ r ∈ t.rows, r.values.length = (s.handler.dataShapes id).toNat)
    (hreach : Server.Reached e s (.ofNat api.idClient) (s.world.calls + lookups synt + 2)) :
    ∃ pkt buf p, api.pkt? physicalTime (.request id.toNat synt.toNat 0 priority) = some pkt ∧
      pkt.pkt2Buf? = some buf ∧ fromServiceBuf? (listenBuf buf) = some p ∧
      ∃ addr reply res, s.allClientAddr (.ofNat api.idClient) = some addr ∧
        (handlePkt g e p s).server.world.sent = s.world.sent ++ [(addr, reply)] ∧
        (∀ count ≤ 1000, round count (some reply) = .returns (some res)) ∧
        ClientDRDS.Receiving.entries res = [(id.toNat, (answer (s.world.records id) synt).1.toNat,
          (answer (s.world.records id) synt).2)] := by
  obtain ⟨pkt, buf, p, hpkt, hbuf, hp, hsrc, hserver⟩ :=
    api.request_handled g e s physicalTime priority id synt
  refine ⟨pkt, buf, p, hpkt, hbuf, hp, ?_⟩
  obtain ⟨values, hv, hcases⟩ := request_cases he synt p.src p.priority ht
  rw [hsrc] at hcases
  rcases hcases with ⟨_, addr, haddr, hsent⟩ | ⟨hno, _⟩
  · have htime : lookedUp e s t synt = requestedSynt t synt :=
      Server.lookedUp_eq_iff.mpr fun _ => .inl (hdb _)
    have hvalues := Handler.syntValues_eq hv (hdb _) hs hrows
    have hC : ∀ row ∈ [values], row.length = values.length := by simp
    have hlen := hv.length_lt
    obtain ⟨res, hres, hentries⟩ := entries_of_dataPkt e (s.asked (lookups synt + 1))
      (.ofNat api.idClient) p.priority (lookedUp e s t synt) Utils.flagSingle id hC (by simp)
      ⟨by simp, hlen⟩ (by simp only [List.length_singleton]; omega)
    have hsent' := hsent
    rw [← hsrc, ← hserver] at hsent'
    refine ⟨addr, _, res, haddr, hsent', fun count hcount => ?_, ?_⟩
    · rw [hsrc]
      unfold round
      rw [if_neg (by omega), Option.bind_some, hres]
    · rw [hentries, answer_of_table ht, htime, hvalues, htime]
      simp
  · exact absurd hreach hno

end Exchange

section AfterRun
variable {e : Env} {id : UInt16} {evs : List Event} {q q' : Pipe} {w w' : World}

/-- After any run of the buffer a request for any time returns what there is of it: the first record of
the time, among those there were and those of the batches that were kept. -/
theorem requested_after_run (g : Slice.Growth) (he : e.IgnoresBytes) (hdb : ∀ k, e.statement k = none)
    (hid : id ∈ q.handler.recordTables) (hfits : q.handler.Fits id w)
    (hshape : 0 < q.handler.dataShapes id ∧ q.handler.dataShapes id ≠ 255)
    (hrecords : ∀ d ∈ w.records id, q.handler.Shaped id d)
    (hrun : Pipe.run? e id evs (q, w) = some (q', w')) :
    ∃ r, (Pipe.batcher id).run? evs q = some r ∧
      ∀ (s : Server) (api : API) (synt : UInt32) (physicalTime priority : ℕ),
        s.handler = q'.handler → s.world = w' →
        Server.Reached e s (.ofNat api.idClient) (s.world.calls + lookups synt + 2) →
      ∃ pkt buf p, api.pkt? physicalTime (.request id.toNat synt.toNat 0 priority) = some pkt ∧
        pkt.pkt2Buf? = some buf ∧ fromServiceBuf? (listenBuf buf) = some p ∧
        ∃ addr reply res, s.allClientAddr (.ofNat api.idClient) = some addr ∧
          (handlePkt g e p s).server.world.sent = s.world.sent ++ [(addr, reply)] ∧
          (∀ count ≤ 1000, round count (some reply) = .returns (some res)) ∧
          let found := answer (w.records id ++
            (kept (q.handler.Shaped id) r.batches).map (Data.stored e)) synt
          ClientDRDS.Receiving.entries res = [(id.toNat, found.1.toNat, found.2)] := by
  obtain ⟨r, hr, _, hstored⟩ :=
    Pipe.run?_records hid (Pipe.insertsSucceed_of_fits hdb hfits) hrun
  obtain ⟨hshapes, t, ht, hle⟩ := Pipe.run?_fits hrun hfits
  refine ⟨r, hr, fun s api synt physicalTime priority hhandler hworld hreach => ?_⟩
  subst hworld
  have hsame : s.handler.dataShapes id = q.handler.dataShapes id := by rw [hhandler, hshapes]
  have hscans : s.handler.Scans id t := by
    refine ⟨⟨?_, ?_⟩, ?_⟩
    · rw [hsame]
      exact hshape.1
    · rw [hsame]
      exact hle
    · rw [hsame]
      exact hshape.2
  have hrows : ∀ row ∈ t.rows, row.values.length = (s.handler.dataShapes id).toNat := by
    intro row hrow
    have hmem : row.data ∈ s.world.records id := by
      rw [World.records, ht]
      exact List.mem_map_of_mem hrow
    rw [hstored] at hmem
    rw [hsame]
    rcases List.mem_append.mp hmem with hmem | hmem
    · exact hrecords _ hmem
    · obtain ⟨d, hd, hdata⟩ := List.mem_map.mp hmem
      have hgood := (List.mem_filter.mp ((kept_sublist _ _).subset hd)).2
      have hlen : d.value.length = (q.handler.dataShapes id).toNat := of_decide_eq_true hgood
      have hvalues : row.values = d.value.map e.column := (congrArg Data.value hdata).symm
      rw [hvalues, List.length_map, hlen]
  rw [← hstored]
  exact API.request_exchange g he physicalTime priority ht hscans hdb hrows hreach

/-- A record stored after a batch that is lost is read back. -/
theorem requested_after_run_scalar : ∃ q' w' pkt buf p reply res,
    Pipe.run? .reliable 3 separateEvents (scalarPipe, scalarWorld) = some (q', w') ∧
    exampleApi.pkt? 1650000000 (.request 3 503 0 7) = some pkt ∧ pkt.pkt2Buf? = some buf ∧
    fromServiceBuf? (listenBuf buf) = some p ∧
    (handlePkt .tight .reliable p { Server.afterInit with handler := q'.handler, world := w' }).server.world.sent =
      [(⟨0x7f000001, 20001⟩, reply)] ∧
    round 0 (some reply) = .returns (some res) ∧ ClientDRDS.Receiving.entries res = [(3, 503, [9])] := by
  obtain ⟨q', w', hrun, hsent⟩ : ∃ q' w',
      Pipe.run? .reliable 3 separateEvents (scalarPipe, scalarWorld) = some (q', w') ∧ w'.sent = [] :=
    ⟨_, _, rfl, rfl⟩
  obtain ⟨r, hr, hread⟩ := requested_after_run .tight Env.reliable_ignoresBytes (fun _ => rfl) (by decide)
    ⟨⟨1, []⟩, rfl, by decide⟩ (by decide) (by decide) hrun
  cases hr
  obtain ⟨pkt, buf, p, hpkt, hbuf, hp, addr, reply, res, haddr, hreply, hround, hentries⟩ :=
    hread { Server.afterInit with handler := q'.handler, world := w' } exampleApi 503 1650000000 7 rfl rfl
      ⟨_, rfl, rfl, rfl⟩
  cases haddr
  rw [hsent] at hreply
  exact ⟨q', w', pkt, buf, p, reply, res, hrun, hpkt, hbuf, hp, hreply, hround 0 (by decide), hentries⟩

end AfterRun
end PyApi
end DRDS
