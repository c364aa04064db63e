/-
  ClaimQueue.Proofs.Work.Counters — machine words that count.

  A counter that is what it counts goes up by one as long as there is room, and down by one
  as long as something is counted.
-/

import ClaimQueue.Upkeep.Pool
import ClaimQueue.Work.Bench
import Mathlib.Algebra.Group.Nat.Defs

namespace ClaimQueue

theorem toNat_add_one {n : UInt64} (room : n.toNat + 1 < 2 ^ 64) : (n + 1).toNat = n.toNat + 1 := by
  rw [UInt64.toNat_add]
  exact Nat.mod_eq_of_lt room

theorem toNat_succ {n : UInt32} (room : n.toNat + 1 < 2 ^ 32) : (n + 1).toNat = n.toNat + 1 := by
  rw [UInt32.toNat_add]
  exact Nat.mod_eq_of_lt room

theorem toNat_sub_one {n : UInt64} (some : 0 < n.toNat) : (n - 1).toNat + 1 = n.toNat := by
  have le : (1 : UInt64) ≤ n := UInt64.le_iff_toNat_le.mpr some
  have less : (n - 1).toNat = n.toNat - 1 := UInt64.toNat_sub_of_le _ _ le
  omega

theorem toNat_pos {n : UInt64} : 0 < n ↔ 0 < n.toNat := UInt64.lt_iff_toNat_lt

namespace Bench

variable {b : Bench}

theorem markIdle_idle (room : b.idle.toNat + 1 < 2 ^ 64) : b.markIdle.idle.toNat = b.idle.toNat + 1 :=
  toNat_add_one room

theorem markBusy_idle (marked : 0 < b.idle.toNat) : b.markBusy.idle.toNat + 1 = b.idle.toNat :=
  toNat_sub_one marked

end Bench

namespace Pool

/-- There is a place for one runner in every pool. -/
theorem place_pos (p : Pool) : 0 < max p.config.most 1 := by
  show 0 < if p.config.most ≤ 1 then 1 else p.config.most
  split
  · decide
  · rename_i more
    exact UInt64.lt_trans (by decide) (UInt64.not_le.mp more)

theorem announce_queued {p : Pool} (room : p.queued.toNat + 1 < 2 ^ 64) :
    p.announce.queued.toNat = p.queued.toNat + 1 :=
  toNat_add_one room

/-- A place is given up only if enough are left. -/
theorem retire_cases (p : Pool) :
    (p.retire = (false, p)) ∨ (p.config.least < p.live ∧ p.retire = (true, { p with live := p.live - 1 })) := by
  unfold retire
  split
  · exact Or.inr ⟨‹_›, rfl⟩
  · exact Or.inl rfl

end Pool

end ClaimQueue
