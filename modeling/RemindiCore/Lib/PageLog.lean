import Mathlib.Logic.Function.Basic
import Mathlib.Data.List.Basic
import Mathlib.Data.List.Induction

/-!
# Pages and a write-ahead log

An image gives every page its content, a log is a list of frames, each one page
with its new content.  `replay` reads an image through a log: the last frame of
a page counts (`replay_apply`).  Copying the pages of a part of the log into the
image does not change what is read (`replay_checkpoint`).
-/

namespace PageLog

variable {Page Cell : Type} [DecidableEq Page]

abbrev Image (Page Cell : Type) := Page → Cell

abbrev Frame (Page Cell : Type) := Page × Cell

/-- The image as it is read through the log. -/
def replay (main : Image Page Cell) (log : List (Frame Page Cell)) : Image Page Cell :=
  log.foldl (fun image frame => Function.update image frame.1 frame.2) main

/-- The last frame of a page. -/
def latest (log : List (Frame Page Cell)) (page : Page) : Option Cell :=
  log.foldl (fun cell frame => if frame.1 = page then some frame.2 else cell) none

@[simp] theorem replay_nil (main : Image Page Cell) : replay main [] = main := rfl

theorem replay_append (main : Image Page Cell) (log log' : List (Frame Page Cell)) :
    replay main (log ++ log') = replay (replay main log) log' :=
  List.foldl_append

theorem latest_concat (log : List (Frame Page Cell)) (frame : Frame Page Cell) (page : Page) :
    latest (log ++ [frame]) page = if frame.1 = page then some frame.2 else latest log page :=
  List.foldl_concat ..

/-- **A page is read from its last frame, or from the image.** -/
theorem replay_apply (main : Image Page Cell) (log : List (Frame Page Cell)) (page : Page) :
    replay main log page = (latest log page).getD (main page) := by
  induction log using List.reverseRecOn with
  | nil => rfl
  | append_singleton log frame ih =>
    rw [replay_append, latest_concat]
    show Function.update (replay main log) frame.1 frame.2 page = _
    by_cases hpage : frame.1 = page
    · subst hpage
      rw [Function.update_self, if_pos rfl, Option.getD_some]
    · rw [Function.update_of_ne (Ne.symm hpage), if_neg hpage, ih]

theorem latest_append (log log' : List (Frame Page Cell)) (page : Page) :
    latest (log ++ log') page = (latest log' page).or (latest log page) := by
  induction log' using List.reverseRecOn with
  | nil => rw [List.append_nil]; rfl
  | append_singleton log' frame ih =>
    rw [← List.append_assoc, latest_concat, latest_concat, ih]
    split <;> rfl

/-- **A checkpoint, of the whole log or of a part, changes nothing that is read.** -/
theorem replay_checkpoint (main : Image Page Cell) (log : List (Frame Page Cell)) (n : Nat) :
    replay (replay main (log.take n)) log = replay main log := by
  funext page
  have hsplit : latest log page = (latest (log.drop n) page).or (latest (log.take n) page) := by
    rw [← latest_append, List.take_append_drop]
  rw [replay_apply, replay_apply, replay_apply, hsplit]
  cases latest (log.drop n) page with
  | some cell => rfl
  | none => cases latest (log.take n) page <;> rfl

/-- Two images read alike through a log exactly where it does not cover a
difference between them. -/
theorem replay_eq_iff (main main' : Image Page Cell) (log : List (Frame Page Cell)) :
    replay main log = replay main' log ↔ ∀ page, latest log page = none → main page = main' page := by
  constructor
  · intro h page hnone
    have hpage := congrFun h page
    rwa [replay_apply, replay_apply, hnone] at hpage
  · intro h
    funext page
    rw [replay_apply, replay_apply]
    cases hlatest : latest log page with
    | some cell => rfl
    | none => exact h page hlatest

/-- An image reads as `target` exactly when every last frame holds the page of
`target`, and every other page is the page of `target` already. -/
theorem replay_eq_iff_target (main target : Image Page Cell) (log : List (Frame Page Cell)) :
    replay main log = target ↔ (∀ page cell, latest log page = some cell → cell = target page) ∧
      ∀ page, latest log page = none → main page = target page := by
  constructor
  · rintro rfl
    constructor
    · intro page cell hcell
      rw [replay_apply, hcell]
      rfl
    · intro page hnone
      rw [replay_apply, hnone]
      rfl
  · rintro ⟨hsome, hnone⟩
    funext page
    rw [replay_apply]
    cases hlatest : latest log page with
    | some cell => exact hsome page cell hlatest
    | none => exact hnone page hlatest

end PageLog
