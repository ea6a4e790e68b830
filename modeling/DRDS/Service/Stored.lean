import DRDS.Service.Tally

/-! What has been stored once a data service has come to rest: every record that has arrived for an id, as
often as it has arrived, unless it had to be dropped on the way. -/
namespace DRDS.Service
open Go Concurrency Server

/-! ### Runs in which nothing is dropped -/

def Roomy (id : UInt16) (S : Service) : Prop :=
  (S.server.handler.dataBuffer id).any fun queue => queue.length < Utils.buffLen

instance (id : UInt16) : DecidablePred (Roomy id) := fun _ => inferInstanceAs (Decidable (_ = true))

def AllShaped (g : Slice.Growth) (id : UInt16) (shape : UInt8) (S : Service) : Prop :=
  ∀ bytes ∈ S.arrived, ∀ pkt ∈ fromServiceBuf? (listenBuf bytes), pkt.service = Utils.serSend →
    ∀ f ∈ pkt.subpackets, f.dataID = id →
      ∀ rawData ∈ payloadBuf2Float? g f.payload, rawData.toList.length = shape.toNat

instance (g : Slice.Growth) (id : UInt16) (shape : UInt8) : DecidablePred (AllShaped g id shape) :=
  fun S => inferInstanceAs (Decidable (∀ bytes ∈ S.arrived, ∀ pkt ∈ fromServiceBuf? (listenBuf bytes),
    pkt.service = Utils.serSend → ∀ f ∈ pkt.subpackets, f.dataID = id →
      ∀ rawData ∈ payloadBuf2Float? g f.payload, rawData.toList.length = shape.toNat))

def NonePosted (id : UInt16) (S : Service) : Prop :=
  ∀ command ∈ S.commands, ¬ PostsTo id command.1 command.2

section Sound
variable {g : Slice.Growth} {e : Env} {init : Start} {id : UInt16} {shape : UInt8} {S T U : Service}

/-- A state between the start and the end of such a run. -/
theorem Inv.sound (hT : Inv g e init (fun _ => True) T) (hST : Later S T) (hTU : Later T U)
    (hstatement : ∀ k, e.statement k = none) (hid : id ∈ S.server.handler.recordTables)
    (hshape : S.server.handler.dataShapes id = shape)
    (hcolumns : ∃ t, S.server.world.tables id = some t ∧ shape.toNat ≤ t.columns)
    (hroom : Roomy id T) (hshaped : AllShaped g id shape U) (hposted : NonePosted id U) :
    Sound e id shape T where
  statement := hstatement
  recorded := hST.recordTables ▸ hid
  dataShapes := hST.dataShapes ▸ hshape
  columns := by
    obtain ⟨t, ht, hwide⟩ := hcolumns
    have hmap := hST.columns id
    rw [ht, Option.map_some] at hmap
    obtain ⟨t', ht', hsame⟩ := Option.map_eq_some_iff.mp hmap
    exact ⟨t', ht', hsame ▸ hwide⟩
  room := by
    obtain ⟨queue, hqueue, hlt⟩ := (Option.any_eq_true _ _).mp hroom
    exact ⟨queue, hqueue, of_decide_eq_true hlt⟩
  shaped := by
    intro queue hqueue data hdata
    cases hT.queues id queue hqueue data hdata with
    | send received service mem names raw =>
      obtain ⟨bytes, hbytes, hpkt⟩ := received.later hTU
      exact hshaped bytes hbytes _ hpkt service _ mem names _ raw
    | command physicalTime posted =>
      obtain ⟨param, body, n, hmem, hcommand, hn⟩ := posted.later hTU
      exact absurd ⟨n, _, _, hcommand, hn⟩ (hposted _ hmem)
  buffer := by
    intro buf hbuf
    obtain ⟨bytes, _, hbytes⟩ := hT.buffer buf hbuf
    exact ⟨bytes, hbytes⟩
  commands command hcommand := hposted command (hTU.commands.subset hcommand)

theorem always_sound {P P' : Pool Service Goroutine} {ms : List (Move Input)}
    (hP : (contract g e init fun _ => True).Holds P) (hlater : Later S P.shared)
    (hrun : P.run? (setting g e) ms = some P')
    (hstatement : ∀ k, e.statement k = none) (hid : id ∈ S.server.handler.recordTables)
    (hshape : S.server.handler.dataShapes id = shape)
    (hcolumns : ∃ t, S.server.world.tables id = some t ∧ shape.toNat ≤ t.columns)
    (hroom : P.Always (setting g e) (Roomy id) ms) (hshaped : AllShaped g id shape P'.shared)
    (hposted : NonePosted id P'.shared) :
    P.Always (setting g e) (fun S => True → Sound e id shape S) ms := by
  induction ms generalizing P with
  | nil =>
    cases hrun
    exact fun _ => Inv.sound hP.inv hlater (.refl _) hstatement hid hshape hcolumns hroom hshaped hposted
  | cons m ms ih =>
    have hrest := ((setting_keeps g e init _).run? (fun _ _ => trivial) hP hrun).2
    refine ⟨fun _ => Inv.sound hP.inv hlater hrest hstatement hid hshape hcolumns hroom.1 hshaped hposted,
      fun P₁ hstep => ?_⟩
    obtain ⟨P₁', hstep', hrun'⟩ := Option.bind_eq_some_iff.mp hrun
    cases hstep.symm.trans hstep'
    obtain ⟨hP₁, hlater₁⟩ := (setting_keeps g e init _).step? (fun _ _ => trivial) hP hstep
    exact ih hP₁ (hlater.trans hlater₁) hrun' (hroom.2 P₁ hstep)

end Sound

/-! ### Rest -/

/-- The loops that have nothing left to store. -/
def Resting : Goroutine → Prop
  | .producer => True
  | .consumer => True
  | .handleData _ p => p.buffer = []
  | _ => False

/-- Each goroutine has ended or is at the beginning or the end of a round with nothing left to store, and
nothing is left in the sockets, in `Buffer` or in the channel. -/
structure AtRest (g : Slice.Growth) (e : Env) (id : UInt16) (P : Pool Service Goroutine) : Prop where
  threads : ∀ p ∈ P.threads, p = .done () ∨ ∃ r, Resting r ∧ (p = body g e r ∨ p = .again r)
  socket : P.shared.socket = []
  buffer : P.shared.buffer = []
  queue : ∀ queue, P.shared.server.handler.dataBuffer id = some queue → queue = []

section Rest
variable {g : Slice.Growth} {e : Env} {id : UInt16} {keep : Data → Bool} {initial n : ℕ} {shape : UInt8}
  {S : Service}

theorem exists_empty_packet : ∃ bytes pkt, fromServiceBuf? (listenBuf bytes) = some pkt ∧
    pkt.service = Utils.serSend ∧ pkt.subpackets = [] := by
  have hpkt : (fromServiceBuf? (listenBuf [])).any fun pkt =>
      pkt.service = Utils.serSend ∧ pkt.subpackets.isEmpty := by
    decide +kernel
  obtain ⟨pkt, hpkt, hends⟩ := (Option.any_eq_true _ _).mp hpkt
  obtain ⟨hservice, hsubpackets⟩ := of_decide_eq_true hends
  exact ⟨[], pkt, hpkt, hservice, List.isEmpty_iff.mp hsubpackets⟩

theorem resting_pays {r : Goroutine} (hr : Resting r) (hS : Sound e id shape S) {Q : Unit → ℕ → Prop}
    (h : (account g e id keep initial shape True).Pays (body g e r) n Q) : n = 0 := by
  obtain ⟨bytes, pkt, hpkt, hservice, hsubpackets⟩ := exists_empty_packet
  cases r with
  | main subscriptions => cases hr
  | call r => cases hr
  | command param body => cases hr
  | producer =>
    -- it would pass on a datagram
    obtain ⟨m, hm, -, hread⟩ := Account.Pays.of_await_bind (s := { S with socket := [bytes] }) h
      (fun _ => { hS with }) rfl
    obtain ⟨k, hk, -, hsent⟩ := Account.Pays.of_await_bind (s := { S with buffer := [] }) hm
      (fun _ => { hS with buffer := fun buf hbuf => (List.not_mem_nil hbuf).elim })
      (if_pos (by simp [Utils.buffLen]))
    have hnone : k = 0 := hk.2.2 trivial
    replace hread := hread trivial
    replace hsent := hsent trivial
    simp only [account, List.tail_cons, List.map_cons, List.map_nil, List.sum_cons, List.sum_nil,
      List.nil_append, inBuf_listenBuf] at hread hsent
    omega
  | consumer =>
    -- it would handle a packet
    obtain ⟨m, hm, -, hread⟩ := Account.Pays.of_await_bind (s := { S with buffer := [listenBuf bytes] }) h
      (fun _ => { hS with buffer := fun buf hbuf => ⟨bytes, List.mem_singleton.mp hbuf⟩ }) rfl
    have hempty : inBuf g e id keep (listenBuf bytes) = 0 := by
      simp [inBuf, hpkt, inPacket, hservice, hsubpackets]
    simp only [hpkt, handlePkt, hservice, hsubpackets, if_true, rounds] at hm
    have hnone : m = 0 := hm.2.2 trivial
    replace hread := hread trivial
    simp only [account, List.tail_cons, List.map_cons, List.map_nil, List.sum_cons, List.sum_nil,
      hempty] at hread
    omega
  | handleData id' p =>
    -- it would time out
    have hround : (account g e id keep initial shape True).Pays
        (handOver e id' (p.handleData (.timeout 0))) n Q := h 1 0
    have hstays : p.handleData (.timeout 0) = (p, none) := by
      rw [Pending.handleData, if_neg]
      rw [show p.buffer = [] from hr]
      decide
    rw [hstays] at hround
    have hnone := hround.2.2 trivial
    rw [hnone]
    simp [account, show p.buffer = [] from hr]

theorem resting_credit {r : Goroutine} (hr : Resting r) :
    (account g e id keep initial shape True).credit r = 0 := by
  cases r with
  | main subscriptions => cases hr
  | producer => rfl
  | consumer => rfl
  | handleData id' p =>
    have hempty : p.buffer = [] := hr
    simp [account, hempty]
  | call r => cases hr
  | command param body => cases hr

theorem AtRest.owes_nothing {P : Pool Service Goroutine} (hP : AtRest g e id P)
    (hS : Sound e id shape S) (h : (account g e id keep initial shape True).Covers n P.threads) :
    n = 0 := by
  obtain ⟨hthreads, _, _, _⟩ := hP
  generalize P.threads = threads at h hthreads
  induction threads generalizing n with
  | nil => exact h.2 trivial
  | cons p threads ih =>
    rw [List.forall_mem_cons] at hthreads
    obtain ⟨m, k, hp, hrest, hleaves⟩ := h
    have hk : k = 0 := ih hrest hthreads.2
    have hm : m = 0 := by
      rcases hthreads.1 with rfl | ⟨r, hr, rfl | rfl⟩
      · obtain ⟨l, hl, hnone⟩ := hp
        exact (hl.2 trivial).trans (hnone.2 trivial)
      · exact resting_pays hr hS hp
      · exact (hp.2.2 trivial).trans (resting_credit hr)
    have hn := hleaves.2 trivial
    omega

end Rest

/-! ### Runs -/

section Runs
variable {g : Slice.Growth} {e : Env} {server : Server} {subs : List (UInt16 × UInt8)}
  {consumers producers : ℕ} {now : UInt16 → ℤ} {ms : List (Move Input)} {P : Pool Service Goroutine}
  {id : UInt16}

/-- Once the service is at rest, every record that has arrived for a table is stored, each as often as it
has arrived, if the database has answered, the channel has never been full, and all records that have arrived
have the shape of the table. -/
theorem stored_at_rest (hfresh : server.Fresh)
    (hrun : (launch g e server subs consumers producers now).run? (setting g e) ms = some P)
    (hstatement : ∀ k, e.statement k = none) (hid : id ∈ server.handler.recordTables)
    (hcolumns : ∃ t, server.world.tables id = some t ∧ (server.handler.dataShapes id).toNat ≤ t.columns)
    (hroom : (launch g e server subs consumers producers now).Always (setting g e) (Roomy id) ms)
    (hshaped : AllShaped g id (server.handler.dataShapes id) P.shared)
    (hposted : NonePosted id P.shared) (hrest : AtRest g e id P) (keep : Data → Bool) :
    (P.shared.server.world.rows id).countP (fun r => keep r.data) =
      (server.world.rows id).countP (fun r => keep r.data) +
        (P.shared.arrived.map (givenBy g e id keep)).sum := by
  have hholds := launch_holds g e hfresh (fun _ => True) subs consumers producers now
  have hsound := always_sound hholds (.refl _) hrun hstatement hid rfl hcolumns hroom hshaped hposted
  obtain ⟨n, hcovers, -, hbalance⟩ := (setting_pays g e id keep _ _ True).run?
    (launch_balanced g e hfresh subs consumers producers now id keep _ True) hsound hrun
  replace hbalance := hbalance trivial
  have hnone := hrest.owes_nothing (hsound.last hrun trivial) hcovers
  have hcommands : (P.shared.commands.map fun command => postedBy e id keep command.1 command.2).sum = 0 := by
    refine List.sum_eq_zero fun m hm => ?_
    obtain ⟨command, hcommand, rfl⟩ := List.mem_map.mp hm
    exact postedBy_of_not (hposted command hcommand)
  have hqueue : (P.shared.server.handler.dataBuffer id).getD [] = [] := by
    cases hbuffer : P.shared.server.handler.dataBuffer id with
    | none => rfl
    | some queue => rw [Option.getD_some, hrest.queue queue hbuffer]
  simp only [account, inServer, hrest.socket, hrest.buffer, hqueue, among_nil, List.map_nil, List.sum_nil,
    hcommands] at hbalance
  omega

/-- The run of `recordRun` up to the end of all rounds. -/
def restRun : List (Move Input) :=
  List.replicate 6 (.thread 3 0) ++ [.outside (.datagram (wire valuePacket))] ++
    List.replicate 2 (.thread 2 0) ++ List.replicate 4 (.thread 1 0) ++
    List.replicate 2 (.thread 4 0) ++ List.replicate 3 (.thread 5 0) ++
    [.thread 0 0, .thread 0 0, .thread 0 100000000] ++ List.replicate 3 (.thread 0 0)

def ended : Code Unit → Bool
  | .done _ => true
  | .again (.handleData _ p) => p.buffer.isEmpty
  | .again .producer => true
  | .again .consumer => true
  | _ => false

theorem rests_of_ended {p : Code Unit} (h : ended p) :
    p = .done () ∨ ∃ r, Resting r ∧ (p = body g e r ∨ p = .again r) := by
  unfold ended at h
  split at h
  · exact .inl rfl
  · exact .inr ⟨.handleData _ _, List.isEmpty_iff.mp h, .inr rfl⟩
  · exact .inr ⟨.producer, trivial, .inr rfl⟩
  · exact .inr ⟨.consumer, trivial, .inr rfl⟩
  · cases h

theorem stored_at_rest_restRun : ∃ P,
    (launch .tight .reliable afterInit [(3, 2)] 1 1 fun _ => 0).run? (setting .tight .reliable) restRun =
      some P ∧ (P.shared.arrived.map (givenBy .tight .reliable 3 fun data => data.iter = 500)).sum = 1 ∧
      (P.shared.server.world.rows 3).countP (fun r => r.data.iter = 500) =
        (afterInit.world.rows 3).countP (fun r => r.data.iter = 500) +
          (P.shared.arrived.map (givenBy .tight .reliable 3 fun data => data.iter = 500)).sum := by
  have hrun : ((launch .tight .reliable afterInit [(3, 2)] 1 1 fun _ => 0).run? (setting .tight .reliable)
      restRun).any (fun P => P.threads.all ended ∧ P.shared.socket.isEmpty ∧ P.shared.buffer.isEmpty ∧
        P.shared.server.handler.dataBuffer 3 = some [] ∧ P.shared.commands.isEmpty ∧
        AllShaped .tight 3 1 P.shared ∧
        (P.shared.arrived.map (givenBy .tight .reliable 3 fun data => data.iter = 500)).sum = 1) := by
    decide +kernel
  have hroom : (launch .tight .reliable afterInit [(3, 2)] 1 1 fun _ => 0).Always (setting .tight .reliable)
      (Roomy 3) restRun := by
    decide +kernel
  obtain ⟨P, hP, hends⟩ := (Option.any_eq_true _ _).mp hrun
  obtain ⟨hthreads, hsocket, hbuffer, hqueue, hcommands, hshaped, harrived⟩ := of_decide_eq_true hends
  refine ⟨P, hP, harrived, stored_at_rest afterInit_fresh hP (fun _ => rfl) (by decide)
    ⟨⟨1, []⟩, rfl, by decide⟩ hroom hshaped (fun command hcommand => ?_) ⟨fun p hp => ?_, ?_, ?_, ?_⟩
    fun data => data.iter = 500⟩
  · rw [List.isEmpty_iff.mp hcommands] at hcommand
    cases hcommand
  · exact rests_of_ended (List.all_eq_true.mp hthreads p hp)
  · exact List.isEmpty_iff.mp hsocket
  · exact List.isEmpty_iff.mp hbuffer
  · intro queue hqueue'
    exact Option.some.inj (hqueue'.symm.trans hqueue)

end Runs
end DRDS.Service
