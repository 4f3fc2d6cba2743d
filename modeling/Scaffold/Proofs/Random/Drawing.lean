import Scaffold.Random.Source
/-!
Where drawn numbers lie.  Whatever words a source yields, a number that is drawn
is in its range: words that are thrown away only take attempts.
-/
namespace Scaffold.Random

variable {σ : Type} [Source σ] {attempts : Nat} {s s' : σ} {n : Nat}

theorem below_lt {count : Nat} (hcount : 0 < count)
    (h : below count attempts s = some (n, s')) : n < count := by
  induction attempts generalizing s with
  | zero => cases h
  | succ attempts ih =>
      rw [below] at h
      dsimp only at h
      split at h
      · obtain ⟨rfl, -⟩ := Prod.mk.inj (Option.some.inj h)
        -- the high half of the product of a word and the count
        rw [Nat.div_lt_iff_lt_mul (by decide), Nat.mul_comm]
        exact Nat.mul_lt_mul_of_pos_left (UInt64.toNat_lt _) hcount
      · exact ih h

theorem within_bounds {first last : Nat}
    (h : within attempts first last s = some (n, s')) :
    first ≤ n ∧ n ≤ max first last := by
  rw [within] at h
  split at h
  · next k s'' hk =>
      obtain ⟨rfl, -⟩ := Prod.mk.inj (Option.some.inj h)
      have hlt := below_lt (Nat.succ_pos _) hk
      omega
  · cases h

theorem between_bounds {first stop : Nat} (hrange : first < stop)
    (h : between attempts first stop s = some (n, s')) :
    first ≤ n ∧ n < stop := by
  rw [between, if_pos hrange] at h
  obtain ⟨hfirst, hlast⟩ := within_bounds h
  omega

end Scaffold.Random
