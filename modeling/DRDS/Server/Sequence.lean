import DRDS.Server.Senders
import Mathlib.Data.List.Nodup

/-! The sequence numbers that go out when many goroutines send at once. -/
namespace DRDS.Server
open Go Concurrency

/-- The sequence number of a datagram. -/
def sequenceOf? (buf : List UInt8) : Option UInt16 := uint16At? (.ofList buf) 12 14

theorem sequenceOf?_toServiceBuf (p : ServicePacket (Slice UInt8)) :
    sequenceOf? (toServiceBuf p) = some p.sequence := by
  rw [toServiceBuf_eq_wire]
  exact uint16At_append (p := [p.src, p.dst] ++ leBytes 2 (nibbles p.visible.toPacket).toNat ++
      leBytes 4 p.physicalTime.toNat ++ leBytes 4 p.simulinkTime.toNat)
    (q := leBytes 2 p.length.toNat ++ ([p.service, p.flag, p.option1, p.option2] ++
      (leBytes 2 p.subframeNum.toNat ++ p.visible.subpackets.flatMap subBuf)))
    (by simp [wire, serviceHeader, bufExt, headerBuf, ServicePacket.visible, ServicePacket.map,
      nibbles]) (by simp) rfl

theorem sequenceOf?_datagram {e : Env} {s : Server} {j : Job} {dst : UInt8} {buf : List UInt8}
    (h : j.datagram? e s = some (dst, buf)) : sequenceOf? buf = some s.sequence := by
  cases j with
  | send => cases h
  | sendPkt =>
    cases h
    rw [sequenceOf?_toServiceBuf]
    rfl
  | sendOpt =>
    cases h
    rw [sequenceOf?_toServiceBuf]
    rfl

namespace Senders

def datagram? (S : Senders) (t : ℕ) : Option (Addr × List UInt8) := (S.phase t).datagram?

/-- The datagrams that have gone out, in the order their numbers were taken. -/
def emitted (S : Senders) : List (Addr × List UInt8) := S.order.filterMap S.datagram?

def ticket (S : Senders) (t : ℕ) : Ticket := ⟨(S.taken t).1, (S.taken t).2, (S.datagram? t).isSome⟩

/-- The counter as the goroutines have moved it, and the datagrams as the network has them. -/
structure Counts (S : Senders) : Prop where
  sequence : S.server.sequence = .ofNat (S.order.length + S.skips)
  nodup : S.order.Nodup
  called : ∀ t, S.phase t = .called → t ∉ S.order
  counted : ∀ (k t : ℕ), S.order[k]? = some t → (S.taken t).1 = k + (S.taken t).2
  numbered : ∀ t dst buf, S.phase t = .numbered dst buf →
    t ∈ S.order ∧ sequenceOf? buf = some (.ofNat (S.taken t).1)
  written : ∀ t d, S.datagram? t = some d → sequenceOf? d.2 = some (.ofNat (S.taken t).1)
  emitted : S.emitted.Perm S.server.world.sent

theorem filterMap_update_perm {β : Type} {f : ℕ → Option β} {l : List ℕ} {t : ℕ} {b : β}
    (hl : l.Nodup) (ht : t ∈ l) (hf : f t = none) :
    (l.filterMap (Function.update f t (some b))).Perm (l.filterMap f ++ [b]) := by
  obtain ⟨l₁, l₂, rfl⟩ := List.append_of_mem ht
  have hsame : ∀ l' : List ℕ, t ∉ l' → l'.filterMap (Function.update f t (some b)) = l'.filterMap f := by
    intro l' ht'
    apply List.filterMap_congr
    intro a ha
    rw [Function.update_of_ne (by rintro rfl; exact ht' ha)]
  have hnodup := List.perm_middle.nodup_iff.mp hl
  rw [List.nodup_cons, List.mem_append, not_or] at hnodup
  rw [List.filterMap_append, List.filterMap_append, List.filterMap_cons, List.filterMap_cons, hf,
    Function.update_self, hsame l₁ hnodup.1.1, hsame l₂ hnodup.1.2, List.append_assoc]
  have hswap : ([b] ++ l₂.filterMap f).Perm (l₂.filterMap f ++ [b]) := List.perm_append_comm
  exact hswap.append_left _

theorem Counts.init {s : Server} (hs : s.sequence = 0) (hsent : s.world.sent = []) :
    Counts (init s) where
  sequence := hs
  nodup := List.nodup_nil
  called _ _ := List.not_mem_nil
  counted k t h := by simp [Senders.init] at h
  numbered t dst buf h := by simp [Senders.init] at h
  written t d h := by simp [datagram?, Phase.datagram?, Senders.init] at h
  emitted := by
    rw [show (Senders.init s).server.world.sent = [] from hsent]
    exact .refl _

section Step
variable {e : Env} {jobs : ℕ → Job} {t : ℕ} {S : Senders}

theorem datagram?_of_phase {ph : Phase} (h : S.phase t = ph) : S.datagram? t = ph.datagram? :=
  congrArg Phase.datagram? h

theorem datagram?_of_update {T : Senders} {next : Phase}
    (h : T.phase = Function.update S.phase t next) :
    T.datagram? = Function.update S.datagram? t next.datagram? := by
  unfold datagram?
  rw [h]
  exact Function.comp_update Phase.datagram? S.phase t next

theorem datagram?_eq_of_update {T : Senders} {next : Phase}
    (h : T.phase = Function.update S.phase t next) (hd : next.datagram? = S.datagram? t) :
    T.datagram? = S.datagram? := by
  rw [datagram?_of_update h, hd, Function.update_eq_self]

theorem phase_of_update {next ph : Phase} {u : ℕ} (h : Function.update S.phase t next u = ph)
    (hne : next ≠ ph) : S.phase u = ph := by
  rw [Function.update_apply] at h
  split_ifs at h
  · exact absurd h hne
  · exact h

theorem Counts.move (h : S.Counts) {s : Server} {next : Phase} {skips : ℕ}
    (hseq : s.sequence = .ofNat (S.order.length + skips))
    (hsent : s.world.sent = S.server.world.sent) (hcalled : next ≠ .called)
    (hnumbered : ∀ dst buf, next ≠ .numbered dst buf) (hd : next.datagram? = S.datagram? t) :
    Counts { S with server := s, phase := Function.update S.phase t next, skips } := by
  have hsame : datagram? { S with server := s, phase := Function.update S.phase t next, skips } =
      S.datagram? := datagram?_eq_of_update rfl hd
  constructor
  · exact hseq
  · exact h.nodup
  · intro u hu
    exact h.called u (phase_of_update hu hcalled)
  · exact h.counted
  · intro u dst buf hu
    exact h.numbered u dst buf (phase_of_update hu (hnumbered dst buf))
  · intro u d hu
    rw [hsame] at hu
    exact h.written u d hu
  · unfold Senders.emitted
    rw [hsame]
    exact hsent ▸ h.emitted

theorem Counts.number (h : S.Counts) (hphase : S.phase t = .called) {dst : UInt8}
    {buf : List UInt8} (hbuf : sequenceOf? buf = some S.server.sequence) :
    (S.number t dst buf).Counts := by
  have hnew : t ∉ S.order := h.called t hphase
  have hne : ∀ {u}, u ∈ S.order → u ≠ t := by
    rintro u hu rfl
    exact hnew hu
  have hnone : S.datagram? t = none := datagram?_of_phase hphase
  have hd : (S.number t dst buf).datagram? = S.datagram? := datagram?_eq_of_update rfl hnone.symm
  constructor
  · change S.server.sequence + 1 = UInt16.ofNat ((S.order ++ [t]).length + S.skips)
    have hlen : (S.order ++ [t]).length + S.skips = S.order.length + S.skips + 1 := by
      rw [List.length_append, List.length_singleton]
      omega
    rw [h.sequence, hlen]
    exact (UInt16.ofNat_add _ 1).symm
  · have hnodup := h.nodup.concat hnew
    rwa [List.concat_eq_append] at hnodup
  · intro u hu
    by_cases hut : u = t
    · subst hut
      simp [Senders.number] at hu
    · have hold := h.called u (by simpa [Senders.number, hut] using hu)
      simp [Senders.number, hold, hut]
  · intro k u hk
    change (S.order ++ [t])[k]? = some u at hk
    rcases Nat.lt_or_ge k S.order.length with hlt | hge
    · rw [List.getElem?_append_left hlt] at hk
      have hut := hne (List.mem_of_getElem? hk)
      simpa [Senders.number, hut] using h.counted k u hk
    · rw [List.getElem?_append_right hge, List.getElem?_singleton] at hk
      split_ifs at hk with hzero
      cases hk
      have hlen : k = S.order.length := by omega
      simp [Senders.number, hlen]
  · intro u c b hu
    by_cases hut : u = t
    · subst hut
      simp only [Senders.number, Function.update_self, Phase.numbered.injEq] at hu
      obtain ⟨rfl, rfl⟩ := hu
      refine ⟨by simp [Senders.number], ?_⟩
      rw [hbuf, h.sequence]
      simp [Senders.number]
    · obtain ⟨hmem, hseq⟩ := h.numbered u c b (by simpa [Senders.number, hut] using hu)
      exact ⟨List.mem_append_left _ hmem, by simpa [Senders.number, hut] using hseq⟩
  · intro u d hu
    rw [hd] at hu
    have hut : u ≠ t := by
      rintro rfl
      rw [hnone] at hu
      cases hu
    simpa [Senders.number, hut] using h.written u d hu
  · unfold Senders.emitted
    rw [hd]
    change ((S.order ++ [t]).filterMap S.datagram?).Perm S.server.world.sent
    rw [List.filterMap_append, List.filterMap_cons, hnone, List.filterMap_nil, List.append_nil]
    exact h.emitted

theorem Counts.write (h : S.Counts) {dst : UInt8} {buf : List UInt8}
    (hphase : S.phase t = .numbered dst buf) {addr : Addr} {s : Server} {next : Phase}
    (hseq : s.sequence = S.server.sequence)
    (hsent : s.world.sent = S.server.world.sent ++ [(addr, buf)])
    (hnext : next = .written (some (addr, buf)) ∨ next = .ended (some (addr, buf))) :
    Counts { S with server := s, phase := Function.update S.phase t next } := by
  obtain ⟨hmem, hbuf⟩ := h.numbered t dst buf hphase
  have hnone : S.datagram? t = none := datagram?_of_phase hphase
  have hdata : datagram? { S with server := s, phase := Function.update S.phase t next } =
      Function.update S.datagram? t (some (addr, buf)) := by
    rw [datagram?_of_update rfl]
    rcases hnext with rfl | rfl <;> rfl
  constructor
  · exact hseq.trans h.sequence
  · exact h.nodup
  · intro u hu
    exact h.called u (phase_of_update hu (by rcases hnext with rfl | rfl <;> simp))
  · exact h.counted
  · intro u c b hu
    exact h.numbered u c b (phase_of_update hu (by rcases hnext with rfl | rfl <;> simp))
  · intro u d hu
    rw [hdata] at hu
    by_cases hut : u = t
    · subst hut
      rw [Function.update_self] at hu
      cases hu
      exact hbuf
    · rw [Function.update_of_ne hut] at hu
      exact h.written u d hu
  · unfold Senders.emitted
    rw [hdata]
    have hperm := filterMap_update_perm (b := (addr, buf)) h.nodup hmem hnone
    change (S.order.filterMap _).Perm s.world.sent
    rw [hsent]
    exact hperm.trans (h.emitted.append_right _)

theorem Job.run_of_none {j : Job} {s : Server} (h : j.datagram? e s = none) :
    ∃ handler, (j.run e s).2 = { s with handler } := by
  cases j with
  | send id time physicalTime rawData => exact ⟨_, rfl⟩
  | sendPkt => cases h
  | sendOpt => cases h

theorem Counts.step {T : Senders} (h : S.Counts) (hstep : S.step? e jobs t = some T) : T.Counts := by
  cases step?_step hstep with
  | call hphase hjob =>
    obtain ⟨handler, hrun⟩ := Job.run_of_none hjob
    unfold Senders.call
    rw [hrun]
    exact h.move (s := { S.server with handler }) h.sequence rfl (by simp) (by simp)
      (datagram?_of_phase hphase).symm
  | number hphase hjob => exact h.number hphase (sequenceOf?_datagram hjob)
  | fail hphase herr hsent =>
    rename_i w
    exact h.move (s := { S.server with world := w }) h.sequence hsent (by simp) (by simp)
      (datagram?_of_phase hphase).symm
  | write hphase haddr hsent hnext => exact h.write hphase rfl hsent hnext
  | advance hphase =>
    rename_i datagram
    have hseq : S.server.sequence + 1 = UInt16.ofNat (S.order.length + (S.skips + 1)) := by
      rw [h.sequence, ← Nat.add_assoc]
      exact (UInt16.ofNat_add _ 1).symm
    exact h.move (s := { S.server with sequence := S.server.sequence + 1 }) hseq rfl (by simp)
      (by simp) (datagram?_of_phase hphase).symm

theorem Counts.run {ts : List ℕ} {T : Senders} (h : S.Counts) (hrun : S.run? e jobs ts = some T) :
    T.Counts := by
  induction ts generalizing S with
  | nil =>
    cases hrun
    exact h
  | cons t ts ih =>
    obtain ⟨U, hU, hrest⟩ := Option.bind_eq_some_iff.mp hrun
    exact ih (h.step hU) hrest

end Step

/-- The datagrams that have gone out count from 0, in the order their numbers were taken. -/
def Consecutive (S : Senders) : Prop :=
  S.emitted.map (fun d => sequenceOf? d.2) =
    (List.range S.emitted.length).map fun k => some (UInt16.ofNat k)

/-- Before each datagram that went out, the numbers that did not go out and the advances of
`sendOpt` made up full turns of the counter. -/
def Balanced (S : Senders) : Prop := Ticket.Balanced (2 ^ 16) (S.order.map S.ticket)

theorem map_ofNat_eq_iff (ns ms : List ℕ) :
    ns.map (fun k => some (UInt16.ofNat k)) = ms.map (fun k => some (UInt16.ofNat k)) ↔
      ns.map (· % 2 ^ 16) = ms.map (· % 2 ^ 16) := by
  have hmod : ∀ l : List ℕ, l.map (· % 2 ^ 16) =
      (l.map fun k => some (UInt16.ofNat k)).map fun n => (n.map UInt16.toNat).getD 0 := by
    intro l
    simp
  have hof : ∀ l : List ℕ, l.map (fun k => some (UInt16.ofNat k)) =
      (l.map (· % 2 ^ 16)).map fun k => some (UInt16.ofNat k) := by
    intro l
    rw [List.map_map]
    apply List.map_congr_left
    intro a _
    simp [← UInt16.toNat_inj]
  constructor
  · intro h
    rw [hmod, hmod, h]
  · intro h
    rw [hof, hof ms, h]

theorem Counts.map_emitted {S : Senders} (h : S.Counts) :
    S.emitted.map (fun d => sequenceOf? d.2) =
      (Ticket.usedNumbers (S.order.map S.ticket)).map fun k => some (UInt16.ofNat k) := by
  unfold Senders.emitted Ticket.usedNumbers
  induction S.order with
  | nil => rfl
  | cons t ts ih =>
    rw [List.filterMap_cons, List.map_cons, List.filter_cons]
    cases hd : S.datagram? t with
    | none => simpa [ticket, hd] using ih
    | some d => simpa [ticket, hd, h.written t d hd] using ih

theorem Counts.consecutive_iff {S : Senders} (h : S.Counts) : S.Consecutive ↔ S.Balanced := by
  have hmap := h.map_emitted
  have hlen := congrArg List.length hmap
  rw [List.length_map, List.length_map] at hlen
  have hcounted : Ticket.Counted (S.order.map S.ticket) := by
    intro k ticket hk
    rw [List.getElem?_map, Option.map_eq_some_iff] at hk
    obtain ⟨t, ht, rfl⟩ := hk
    exact h.counted k t ht
  rw [Consecutive, Balanced, ← Ticket.consecutive_iff hcounted, Ticket.Consecutive, hmap,
    hlen, map_ofNat_eq_iff]

end Senders

/-- In every state of every run the sequence numbers that went out are consecutive exactly when
no number that was lost and no second advance of `sendOpt` left a gap before one of them. -/
theorem consecutive_iff_balanced (e : Env) (jobs : ℕ → Job) (s : Server) (schedule : List ℕ)
    (S : Senders) (hs : s.sequence = 0) (hsent : s.world.sent = [])
    (hrun : (Senders.init s).run? e jobs schedule = some S) :
    S.emitted.Perm S.server.world.sent ∧ (S.Consecutive ↔ S.Balanced) := by
  have hcounts := (Senders.Counts.init hs hsent).run hrun
  exact ⟨hcounts.emitted, hcounts.consecutive_iff⟩

/-- Goroutine 0 acknowledges, all others send a value. -/
def ackThenData : ℕ → Job
  | 0 => .sendOpt 2 7 500 Utils.serResponse 0 0 0
  | _ => .sendPkt 2 7 500 0 3 [[7]]

/-- An acknowledgement that goes out makes the next number skip one. -/
theorem ackThenData_skips : ∃ S,
    (Senders.init afterInit).run? .reliable ackThenData [0, 0, 0, 1, 1] = some S ∧
      S.emitted.map (fun d => sequenceOf? d.2) = [some 0, some 2] ∧ ¬ S.Consecutive := by
  refine ⟨_, rfl, by decide +kernel, ?_⟩
  unfold Senders.Consecutive
  decide +kernel

theorem data_consecutive_iff : ∃ S,
    (Senders.init afterInit).run? .reliable ackThenData [1, 2, 2, 1] = some S ∧
      S.emitted.Perm S.server.world.sent ∧ (S.Consecutive ↔ S.Balanced) := by
  obtain ⟨S, hrun⟩ : ∃ S,
      (Senders.init afterInit).run? .reliable ackThenData [1, 2, 2, 1] = some S := ⟨_, rfl⟩
  exact ⟨S, hrun, consecutive_iff_balanced _ _ _ _ S rfl rfl hrun⟩

end DRDS.Server
