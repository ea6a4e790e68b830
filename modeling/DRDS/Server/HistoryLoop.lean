import DRDS.Handler.ReadSynt
import DRDS.Server.Server

/-! The history loop of `Subscribe`. Its counter and its bound are words of 32 bits, and it ends
only when the counter gets past the bound. -/
namespace DRDS.Server
open Go

theorem history?_of_max (e : Env) (s : Server) (id : UInt16) {last : UInt32}
    (hlast : last.toNat = 2 ^ 32 - 1) (n : ℕ) (i : UInt32) : s.history? e id last n i = none := by
  induction n generalizing i s with
  | zero => rfl
  | succ n ih =>
    have hle : i ≤ last := by
      have hlt := i.toNat_lt
      rw [UInt32.le_iff_toNat_le]
      omega
    unfold history?
    rw [if_pos hle]
    dsimp only
    rw [ih]

def historyRun (e : Env) (id : UInt16) : ℕ → UInt32 → Server → List (List Float64) × Server
  | 0, _, s => ([], s)
  | k + 1, i, s =>
    let ((_, row, _), world) := s.handler.readSynt e id i s.world
    let (rows, s) := historyRun e id k (i + 1) { s with world }
    (row :: rows, s)

theorem length_historyRun (e : Env) (id : UInt16) (k : ℕ) (i : UInt32) (s : Server) :
    (historyRun e id k i s).1.length = k := by
  induction k generalizing i s with
  | zero => rfl
  | succ k ih =>
    rw [historyRun, List.length_cons, ih]

/-- Below the largest time a round is made for each time from the counter to the bound, and one
more test ends the loop. -/
theorem history?_of_lt (e : Env) (s : Server) (id : UInt16) {last : UInt32}
    (hlast : last.toNat < 2 ^ 32 - 1) {k : ℕ} (i : UInt32) (hk : last.toNat + 1 - i.toNat = k)
    (n : ℕ) : s.history? e id last n i = if k < n then some (historyRun e id k i s) else none := by
  induction n generalizing i k s with
  | zero => rw [if_neg (Nat.not_lt_zero k), history?]
  | succ n ih =>
    unfold history?
    by_cases hle : i ≤ last
    · have hnat := UInt32.le_iff_toNat_le.mp hle
      have hnext : (i + 1).toNat = i.toNat + 1 := toNat_add_one (by omega)
      obtain ⟨k, rfl⟩ : ∃ l, k = l + 1 := ⟨last.toNat - i.toNat, by omega⟩
      rw [if_pos hle, historyRun]
      dsimp only
      rw [ih _ (i + 1) (k := k) (by omega)]
      by_cases hn : k < n
      · rw [if_pos hn, if_pos (Nat.succ_lt_succ hn)]
      · rw [if_neg hn, if_neg (by omega)]
    · have hnat := UInt32.le_iff_toNat_le.not.mp hle
      obtain rfl : k = 0 := by omega
      rw [if_neg hle, if_pos (Nat.succ_pos n), historyRun]

/-- The loop ends after so many rounds: no fewer, and no more are needed for its last test. -/
def EndsAfter (e : Env) (s : Server) (id : UInt16) (last synt : UInt32) (k : ℕ) : Prop :=
  ∃ rows t, rows.length = k ∧
    ∀ n, s.history? e id last n synt = if k < n then some (rows, t) else none

theorem toNat_lt_of_ne {last : UInt32} (h : last ≠ 0xFFFFFFFF) : last.toNat < 2 ^ 32 - 1 := by
  have hlt := last.toNat_lt
  have hword : (0xFFFFFFFF : UInt32).toNat = 2 ^ 32 - 1 := by decide
  have hnat : last.toNat ≠ (0xFFFFFFFF : UInt32).toNat := fun heq => h (UInt32.toNat_inj.mp heq)
  omega

/-- The loop makes a round for each time from the start to the last exactly when the last time is
not the largest a word holds: from there the counter wraps to 0, and is never past it. -/
theorem history_endsAfter_iff (e : Env) (s : Server) (id : UInt16) (last synt : UInt32) :
    EndsAfter e s id last synt (last.toNat + 1 - synt.toNat) ↔ last ≠ 0xFFFFFFFF := by
  constructor
  · rintro ⟨rows, t, _, hloop⟩ rfl
    have hsome := hloop (2 ^ 32 + 1)
    rw [history?_of_max e s id (by decide), if_pos] at hsome
    · cases hsome
    · have hword : (0xFFFFFFFF : UInt32).toNat = 2 ^ 32 - 1 := by decide
      omega
  · intro hne
    exact ⟨_, _, length_historyRun .., history?_of_lt e s id (toNat_lt_of_ne hne) synt rfl⟩

def lastTick : Server := { afterInit with
  world := { afterInit.world with
    tables := fun id => if id = 3 then some ⟨1, [⟨0xFFFFFFFF, 0, 0, [7]⟩]⟩ else none } }

/-- Asked for this one record, the loop does not end after one round, nor at all. -/
theorem lastTick_not_endsAfter :
    (lastTick.queryLastSynt .reliable 3).1 = 0xFFFFFFFF ∧
      ¬ EndsAfter .reliable lastTick 3 (lastTick.queryLastSynt .reliable 3).1 0xFFFFFFFF 1 := by
  have hquery : (lastTick.queryLastSynt .reliable 3).1 = 0xFFFFFFFF := by decide
  refine ⟨hquery, ?_⟩
  rintro ⟨rows, t, _, hloop⟩
  have hsome := hloop 2
  rw [hquery, history?_of_max _ _ _ (by decide), if_pos (by decide)] at hsome
  cases hsome

theorem history?_rounds_eq_none_iff (e : Env) (s : Server) (id : UInt16) (last synt : UInt32) :
    s.history? e id last historyRounds synt = none ↔ last = 0xFFFFFFFF := by
  constructor
  · intro hnone
    by_contra hne
    have hlt := toNat_lt_of_ne hne
    rw [history?_of_lt e s id hlt synt rfl, historyRounds, if_pos (by omega)] at hnone
    cases hnone
  · rintro rfl
    exact history?_of_max e s id (by decide) _ _

/-- `Subscribe` hangs on a client that is registered already when the last time is the largest. -/
theorem subscribe_hangs_iff (e : Env) (s : Server) (id : UInt16) (dst : UInt8) (synt : UInt32)
    (rate : UInt16) : (s.subscribe e id dst synt rate).1 = .hangs ↔
      s.isSubscriberRegistered id dst ∧ (s.queryLastSynt e id).1 = 0xFFFFFFFF := by
  have hack : ∀ t : Server, (t.subscribeAck e dst synt).1 ≠ .hangs := by
    intro t
    simp [subscribeAck]
  unfold subscribe subscribeFrom
  by_cases hreg : s.isSubscriberRegistered id dst
  · rw [if_pos hreg]
    dsimp only
    by_cases hle : synt ≤ (s.queryLastSynt e id).1
    · rw [if_pos hle]
      have hloop := history?_rounds_eq_none_iff e (s.queryLastSynt e id).2 id
        (s.queryLastSynt e id).1 synt
      split
      · rename_i hnone
        simp [hreg, hloop.mp hnone]
      · rename_i hsome
        have hne : (s.queryLastSynt e id).1 ≠ 0xFFFFFFFF := fun hmax => by
          rw [hloop.mpr hmax] at hsome
          cases hsome
        simp [hreg, hne, hack]
    · have hne : (s.queryLastSynt e id).1 ≠ 0xFFFFFFFF := fun hmax => by
        have hlt := synt.toNat_lt
        rw [hmax, UInt32.le_iff_toNat_le] at hle
        exact hle (Nat.le_of_lt_succ hlt)
      rw [if_neg hle]
      simp [hreg, hne, hack]
  · rw [if_neg hreg]
    simp [hreg, hack]

end DRDS.Server
