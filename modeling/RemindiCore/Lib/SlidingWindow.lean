import Mathlib.Data.List.TakeWhile
import Mathlib.Algebra.Order.Group.Int

/-!
# A sliding window of attempts

`letThrough` keeps the times of the attempts it let through, forgets those that are
a whole window old, and refuses when `limit` are left.  When the readings never
go back, no window of that width, wherever it begins, holds more than `limit`
of the attempts let through (`Tracks.window`).
-/

namespace SlidingWindow

variable {α : Type} (time : α → Int)

/-- The attempts that still count. -/
def recent (width : Int) (now : α) (attempts : List α) : List α :=
  attempts.dropWhile fun a => decide (time a ≤ time now - width)

/-- The attempts after one more, or none when there are `limit` already; at
most `tracked` are kept. -/
def letThrough (limit tracked : Nat) (width : Int) (now : α) (attempts : List α) : Option (List α) :=
  let kept := recent time width now attempts
  if limit ≤ kept.length then none
  else some ((kept ++ [now]).drop ((kept ++ [now]).length - tracked))

/-- The attempts of a window that begins at `start`. -/
def inWindow (width start : Int) (attempts : List α) : Nat :=
  attempts.countP fun a => decide (start ≤ time a ∧ time a < start + width)

/-- What the kept attempts say about all that were let through: the others are
a whole window old. -/
structure Tracks (limit : Nat) (width : Int) (last : Int) (admitted kept : List α) : Prop where
  gone : ∃ old, admitted = old ++ kept ∧ ∀ a ∈ old, time a ≤ last - width
  window : ∀ start, inWindow time width start admitted ≤ limit

variable {time} {limit tracked : Nat} {width last : Int} {admitted kept : List α} {now : α}

theorem Tracks.nil : Tracks time limit width last [] [] where
  gone := ⟨[], rfl, fun _ ha => nomatch ha⟩
  window := fun _ => Nat.zero_le limit

variable (time) in
/-- What is forgotten is old. -/
theorem recent_split (width : Int) (now : α) (attempts : List α) :
    ∃ old, attempts = old ++ recent time width now attempts ∧
      ∀ a ∈ old, time a ≤ time now - width := by
  refine ⟨attempts.takeWhile fun a => decide (time a ≤ time now - width),
    List.takeWhile_append_dropWhile.symm, fun a ha => ?_⟩
  have hall := List.all_eq_true.mp List.all_takeWhile a ha
  exact of_decide_eq_true hall

theorem Tracks.mono {last' : Int} (h : Tracks time limit width last admitted kept)
    (hlast : last ≤ last') : Tracks time limit width last' admitted kept := by
  obtain ⟨old, hold, hgone⟩ := h.gone
  refine ⟨⟨old, hold, fun a ha => ?_⟩, h.window⟩
  have := hgone a ha
  omega

/-- Time passes. -/
theorem Tracks.later (h : Tracks time limit width last admitted kept) (hlast : last ≤ time now) :
    Tracks time limit width (time now) admitted (recent time width now kept) := by
  obtain ⟨old, rfl, hold⟩ := h.gone
  obtain ⟨more, hmore, hgone⟩ := recent_split time width now kept
  refine ⟨⟨old ++ more, ?_, ?_⟩, h.window⟩
  · rw [List.append_assoc, ← hmore]
  · intro a ha
    rcases List.mem_append.mp ha with ha | ha
    · have := hold a ha
      omega
    · exact hgone a ha

/-- **One more attempt.** -/
theorem Tracks.push (h : Tracks time limit width (time now) admitted kept)
    (hfree : kept.length < limit) :
    Tracks time limit width (time now) (admitted ++ [now]) (kept ++ [now]) := by
  obtain ⟨old, hold, hgone⟩ := h.gone
  refine ⟨⟨old, ?_, hgone⟩, fun start => ?_⟩
  · rw [hold, List.append_assoc]
  · unfold inWindow
    rw [List.countP_append, List.countP_singleton]
    by_cases hin : start ≤ time now ∧ time now < start + width
    · -- the window ends after `now`, so what it holds of the earlier ones was kept
      rw [if_pos (decide_eq_true hin), hold, List.countP_append]
      have hzero : old.countP (fun a => decide (start ≤ time a ∧ time a < start + width)) = 0 := by
        refine List.countP_eq_zero.mpr fun a ha => ?_
        have := hgone a ha
        simp only [decide_eq_true_eq]
        omega
      have hkept : kept.countP (fun a => decide (start ≤ time a ∧ time a < start + width)) ≤
          kept.length := List.countP_le_length
      omega
    · rw [if_neg (by simpa using hin)]
      exact h.window start

/-- **The step of the limiter.** -/
theorem Tracks.letThrough (h : Tracks time limit width last admitted kept) (hlast : last ≤ time now)
    (hlimit : limit ≤ tracked) {kept' : List α}
    (hadmitted : letThrough time limit tracked width now kept = some kept') :
    Tracks time limit width (time now) (admitted ++ [now]) kept' := by
  unfold SlidingWindow.letThrough at hadmitted
  dsimp only at hadmitted
  split at hadmitted
  · cases hadmitted
  · next hfree =>
    have hshort : (recent time width now kept ++ [now]).length - tracked = 0 := by
      rw [List.length_append, List.length_singleton]
      omega
    rw [hshort, List.drop_zero] at hadmitted
    obtain rfl := Option.some.inj hadmitted
    exact (h.later hlast).push (by omega)

end SlidingWindow
