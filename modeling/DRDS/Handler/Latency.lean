import DRDS.Handler.HandleData

/-! How long `handleData` holds a record back: less than 200 ms, and what the loop is late. -/
namespace DRDS
open Batch

def Select.now : Select → ℤ
  | .data _ now => now
  | .timeout now => now

/-- Each round of the loop comes within 100 ms of the one before, and what a wake-up and a write
may take. -/
def Paced (delay : ℤ) : ℤ → List Select → Prop
  | _, [] => True
  | last, ev :: evs => last ≤ ev.now ∧ ev.now ≤ last + 100000000 + delay ∧ Paced delay ev.now evs

def lastRound : ℤ → List Select → ℤ
  | last, [] => last
  | _, ev :: evs => lastRound ev.now evs

theorem lastRound_append (last : ℤ) (evs evs' : List Select) :
    lastRound last (evs ++ evs') = lastRound (lastRound last evs) evs' := by
  induction evs generalizing last with
  | nil => rfl
  | cons ev evs ih => exact ih ev.now

theorem Paced.of_append {delay last : ℤ} {evs evs' : List Select} (h : Paced delay last (evs ++ evs')) :
    Paced delay last evs ∧ Paced delay (lastRound last evs) evs' := by
  induction evs generalizing last with
  | nil => exact ⟨trivial, h⟩
  | cons ev evs ih =>
    obtain ⟨hle, hge, hrest⟩ := h
    obtain ⟨hevs, hevs'⟩ := ih hrest
    exact ⟨⟨hle, hge, hevs⟩, hevs'⟩

/-- `since` are the rounds since the last write of a loop whose last round was at `last`. A loop that
holds records has written less than 100 ms before. -/
structure Recent (p : Pending) (last : ℤ) (since : List Select) : Prop where
  buffer : p.buffer = since.flatMap Select.received
  lastWriteTime : p.lastWriteTime ≤ last
  since_now : ∀ ev ∈ since, p.lastWriteTime ≤ ev.now
  recent : since ≠ [] → last < p.lastWriteTime + 100000000

theorem recent_nil {p : Pending} {now : ℤ} (hbuffer : p.buffer = []) (hle : p.lastWriteTime ≤ now) :
    Recent p now [] :=
  ⟨hbuffer, hle, fun _ h => (List.not_mem_nil h).elim, fun h => absurd rfl h⟩

/-- The rounds since the last write are over with a write, and with an empty buffer. -/
theorem Recent.handleData {p : Pending} {last : ℤ} {since : List Select} (h : Recent p last since)
    {ev : Select} (hle : last ≤ ev.now) :
    ∃ since', since' <:+ since ++ [ev] ∧ Recent (p.handleData ev).1 ev.now since' := by
  have hwrite := h.lastWriteTime.trans hle
  cases ev with
  | data data now =>
    unfold Pending.handleData
    dsimp only
    split_ifs with hflush
    · exact ⟨[], List.nil_suffix, recent_nil rfl le_rfl⟩
    · refine ⟨since ++ [.data data now], List.suffix_rfl, ?_, hwrite, fun ev hev => ?_, fun _ => ?_⟩
      · rw [h.buffer, List.flatMap_append]
        rfl
      · rcases List.mem_append.mp hev with hev | hev
        · exact h.since_now ev hev
        · rw [List.mem_singleton.mp hev]
          exact hwrite
      · change now < p.lastWriteTime + 100000000
        omega
  | timeout now =>
    unfold Pending.handleData
    dsimp only
    split_ifs with hsome
    · exact ⟨[], List.nil_suffix, recent_nil rfl le_rfl⟩
    · refine ⟨[], List.nil_suffix, recent_nil ?_ hwrite⟩
      exact List.length_eq_zero_iff.mp (Nat.eq_zero_of_not_pos hsome)

theorem Recent.run? {delay last : ℤ} {evs since : List Select} {p : Pending} {r : Run Pending Data}
    (h : Recent p last since) (hpace : Paced delay last evs)
    (hrun : Pending.batcher.run? evs p = some r) :
    ∃ since', since' <:+ since ++ evs ∧ Recent r.state (lastRound last evs) since' := by
  induction evs generalizing last since p r with
  | nil =>
    cases hrun
    have hsame : since <:+ since ++ [] := by simp
    exact ⟨since, hsame, h⟩
  | cons ev evs ih =>
    obtain ⟨q, out, u, hstep, hu, hstate, _⟩ := Pending.batcher.run?_cons hrun
    have hq : q = (p.handleData ev).1 := congrArg Prod.fst (Option.some.inj hstep).symm
    obtain ⟨since₁, hsuffix₁, hrecent₁⟩ := h.handleData hpace.1
    obtain ⟨since₂, hsuffix₂, hrecent₂⟩ := ih (hq ▸ hrecent₁) hpace.2.2 hu
    refine ⟨since₂, ?_, hstate ▸ hrecent₂⟩
    have hmore : since₁ ++ evs <:+ since ++ ev :: evs := by
      rw [List.append_cons since ev evs]
      exact List.suffix_append_self_iff.mpr hsuffix₁
    exact hsuffix₂.trans hmore

theorem Paced.exists_round {delay last time : ℤ} {evs : List Select} (hpace : Paced delay last evs)
    (hlast : last < time + 100000000) (h : ∃ ev ∈ evs, time + 100000000 ≤ ev.now) :
    ∃ soon, soon <+: evs ∧ (∀ ev ∈ soon, ev.now < time + 200000000 + delay) ∧
      time + 100000000 ≤ lastRound last soon := by
  induction evs generalizing last with
  | nil =>
    obtain ⟨ev, hev, _⟩ := h
    cases hev
  | cons ev evs ih =>
    obtain ⟨hle, hge, hrest⟩ := hpace
    by_cases hnow : time + 100000000 ≤ ev.now
    · refine ⟨[ev], List.prefix_append [ev] evs, fun ev' hev' => ?_, hnow⟩
      rw [List.mem_singleton.mp hev']
      omega
    · have hlater : ∃ ev ∈ evs, time + 100000000 ≤ ev.now := by
        obtain ⟨ev', hev', hnow'⟩ := h
        rcases List.mem_cons.mp hev' with rfl | hev'
        · exact absurd hnow' hnow
        · exact ⟨ev', hev', hnow'⟩
      obtain ⟨soon, hsoon, htimes, hround⟩ := ih hrest (by omega) hlater
      refine ⟨ev :: soon, List.cons_prefix_cons.mpr ⟨rfl, hsoon⟩, fun ev' hev' => ?_, hround⟩
      rcases List.mem_cons.mp hev' with rfl | hev'
      · omega
      · exact htimes ev' hev'

/-- All that is received up to a round is handed over less than 200 ms after it, up to the delay, if the
loop goes on. -/
theorem handleData_within {delay start : ℤ} {before after : List Select} {ev : Select}
    (hpace : Paced delay start (before ++ ev :: after))
    (hgoes : ∃ x ∈ after, ev.now + 100000000 ≤ x.now) :
    ∃ soon r, soon <+: after ∧ (∀ x ∈ soon, x.now < ev.now + 200000000 + delay) ∧
      Pending.batcher.run? (before ++ ev :: soon) ⟨[], start⟩ = some r ∧
      (before ++ [ev]).flatMap Select.received <+: r.batches.flatten := by
  obtain ⟨_, hle, hge, hafter⟩ := hpace.of_append
  have hnow : ev.now < ev.now + 100000000 := by omega
  obtain ⟨soon, hsoon, htimes, hround⟩ := hafter.exists_round hnow hgoes
  obtain ⟨r, hrun, hconserve, _⟩ := handleData_batches start (before ++ ev :: soon)
  refine ⟨soon, r, hsoon, htimes, hrun, ?_⟩
  have hpace' : Paced delay start (before ++ ev :: soon) := by
    obtain ⟨rest, rfl⟩ := hsoon
    rw [← List.cons_append, ← List.append_assoc] at hpace
    exact hpace.of_append.1
  have hstart : Recent ⟨[], start⟩ start [] := recent_nil rfl le_rfl
  obtain ⟨since, hsince, hrecent⟩ := hstart.run? hpace' hrun
  rw [List.nil_append] at hsince
  rw [lastRound_append] at hrecent
  -- what is still held was received later
  have hlater : ev ∉ since := fun hmem => by
    have hnow := hrecent.since_now ev hmem
    have hrecent' := hrecent.recent (List.ne_nil_of_mem hmem)
    change lastRound ev.now soon < r.state.lastWriteTime + 100000000 at hrecent'
    omega
  have hsuffix : since <:+ soon := by
    rcases List.suffix_or_suffix_of_suffix hsince (List.suffix_append before (ev :: soon)) with h | h
    · rcases List.suffix_cons_iff.mp h with rfl | h
      · exact absurd List.mem_cons_self hlater
      · exact h
    · exact absurd (h.subset List.mem_cons_self) hlater
  obtain ⟨handed, rfl⟩ := hsuffix
  rw [hrecent.buffer, List.append_cons before, List.flatMap_append, @List.flatMap_append _ _ handed,
    ← List.append_assoc] at hconserve
  exact ⟨handed.flatMap Select.received, (List.append_cancel_right hconserve).symm⟩

/-- One record after 50 ms, and nothing after it. -/
theorem handleData_within_timeout : ∃ soon r, soon <+: [Select.timeout 150000000] ∧
    (∀ x ∈ soon, x.now < 250000000) ∧
    Pending.batcher.run? (.data ⟨1, 0, [0]⟩ 50000000 :: soon) ⟨[], 0⟩ = some r ∧
    [⟨1, 0, [0]⟩] <+: r.batches.flatten :=
  @handleData_within 0 0 [] [.timeout 150000000] (.data ⟨1, 0, [0]⟩ 50000000)
    ⟨by decide, by decide, by decide, by decide, trivial⟩ ⟨_, List.mem_singleton_self _, by decide⟩

end DRDS
