import Mathlib.Data.List.Infix

/-!
# Splitting a text that arrives in pieces

A text is read item by item; a part ends where the separator is complete for
the first time.
-/

namespace Splitting

open List

variable {α : Type} [DecidableEq α]

structure Cut (α : Type) where
  parts : List (List α)
  part : List α

def feed (separator : List α) (cut : Cut α) (item : α) : Cut α :=
  if separator <:+ cut.part ++ [item] then
    ⟨cut.parts ++ [(cut.part ++ [item]).take (cut.part.length + 1 - separator.length)], []⟩
  else ⟨cut.parts, cut.part ++ [item]⟩

def cut (separator text : List α) : Cut α := text.foldl (feed separator) ⟨[], []⟩

def split (separator text : List α) : List (List α) :=
  (cut separator text).parts ++ [(cut separator text).part]

variable {separator : List α}

theorem foldl_feed_parts (parts : List (List α)) (part text : List α) :
    text.foldl (feed separator) ⟨parts, part⟩ =
      ⟨parts ++ (text.foldl (feed separator) ⟨[], part⟩).parts,
        (text.foldl (feed separator) ⟨[], part⟩).part⟩ := by
  induction text generalizing parts part with
  | nil => simp
  | cons item _ ih =>
    rw [foldl_cons, foldl_cons]
    by_cases complete : separator <:+ part ++ [item]
    · simp only [feed, if_pos complete]
      rw [ih, ih ([] ++ _)]
      simp
    · simp only [feed, if_neg complete]
      rw [ih]

theorem cut_append_singleton (text : List α) (item : α) : cut separator (text ++ [item]) =
      feed separator (cut separator text) item := by
  simp [cut]

theorem cut_of_not_infix {text : List α} (absent : ¬ separator <:+: text) :
    cut separator text = ⟨[], text⟩ := by
  induction text using List.reverseRecOn with
  | nil => rfl
  | append_singleton text _ ih =>
    have before : ¬ separator <:+: text := fun inside =>
      absent (inside.trans (prefix_append _ _).isInfix)
    rw [cut_append_singleton, ih before, feed, if_neg]
    exact fun complete => absent complete.isInfix

theorem cut_part (text : List α) : cut separator (cut separator text).part =
      ⟨[], (cut separator text).part⟩ := by
  induction text using List.reverseRecOn with
  | nil => rfl
  | append_singleton text item ih =>
    rw [cut_append_singleton]
    by_cases complete : separator <:+ (cut separator text).part ++ [item]
    · simp only [feed, if_pos complete]
      rfl
    · simp only [feed, if_neg complete]
      rw [cut_append_singleton, ih, feed, if_neg complete]

theorem cut_append (text more : List α) : cut separator (text ++ more) =
      ⟨(cut separator text).parts ++ (cut separator ((cut separator text).part ++ more)).parts,
        (cut separator ((cut separator text).part ++ more)).part⟩ := by
  have resumed : cut separator ((cut separator text).part ++ more) =
      more.foldl (feed separator) ⟨[], (cut separator text).part⟩ := by
    rw [cut, foldl_append]
    exact congrArg (more.foldl (feed separator)) (cut_part text)
  rw [resumed, ← foldl_feed_parts, cut, foldl_append]
  rfl

theorem cut_first {part : List α} (nonempty : separator ≠ [])
    (first : ¬ separator <:+: part ++ separator.dropLast) (rest : List α) :
    cut separator (part ++ separator ++ rest) =
      ⟨part :: (cut separator rest).parts, (cut separator rest).part⟩ := by
  have whole : part ++ separator = part ++ separator.dropLast ++ [separator.getLast nonempty] := by
    rw [append_assoc, dropLast_append_getLast]
  have complete : cut separator (part ++ separator) = ⟨[part], []⟩ := by
    have length : (part ++ separator.dropLast).length + 1 - separator.length = part.length := by
      have := length_pos_iff.mpr nonempty
      rw [length_append, length_dropLast]
      omega
    rw [whole, cut_append_singleton, cut_of_not_infix first, feed,
      if_pos (whole ▸ suffix_append _ _), length, ← whole,
      take_left']
    · rfl
    · rfl
  rw [cut_append, complete]
  rfl

end Splitting
