import Mathlib.Data.List.DropRight

/-!
# Cutting lists at marks

Passing what has a property stops at a mark that does not have it, whatever stands behind the mark.
-/

namespace SpeechDispatch

variable {β : Type} {p : β → Bool} {mark : β}

theorem takeWhile_append_mark (h : p mark = false) (front back : List β) :
    (front ++ mark :: back).takeWhile p = front.takeWhile p := by
  induction front with
  | nil => exact List.takeWhile_cons_of_neg (by simp [h])
  | cons c front ih =>
    by_cases hc : p c
    · rw [List.cons_append, List.takeWhile_cons_of_pos hc, List.takeWhile_cons_of_pos hc, ih]
    · rw [List.cons_append, List.takeWhile_cons_of_neg hc, List.takeWhile_cons_of_neg hc]

theorem dropWhile_append_mark (h : p mark = false) (front back : List β) :
    (front ++ mark :: back).dropWhile p = front.dropWhile p ++ mark :: back := by
  have hstop : (mark :: back).dropWhile p = mark :: back := List.dropWhile_cons_of_neg (by simp [h])
  rw [List.dropWhile_append, hstop]
  split
  · rename_i hempty
    rw [List.isEmpty_iff.1 hempty, List.nil_append]
  · rfl

/-- What may stand behind a list for passing to stop there. -/
theorem takeWhile_append_of_head {back : List β} (h : ∀ c, back.head? = some c → p c = false) (front : List β) :
    (front ++ back).takeWhile p = front.takeWhile p := by
  cases back with
  | nil => rw [List.append_nil]
  | cons c back => exact takeWhile_append_mark (h c rfl) front back

theorem dropWhile_append_of_head {back : List β} (h : ∀ c, back.head? = some c → p c = false) (front : List β) :
    (front ++ back).dropWhile p = front.dropWhile p ++ back := by
  cases back with
  | nil => rw [List.append_nil, List.append_nil]
  | cons c back => exact dropWhile_append_mark (h c rfl) front back

theorem rdropWhile_append_mark (h : p mark = false) (front back : List β) :
    (front ++ mark :: back).rdropWhile p = front ++ mark :: back.rdropWhile p := by
  have hreverse : (front ++ mark :: back).reverse = back.reverse ++ mark :: front.reverse := by simp
  rw [List.rdropWhile, List.rdropWhile, hreverse, dropWhile_append_mark h]
  simp

theorem forall_ne_mark_iff [DecidableEq β] {text : List β} : (∀ c ∈ text, decide (c ≠ mark) = true) ↔ mark ∉ text := by
  constructor
  · intro h hmem
    simpa using h mark hmem
  · intro h c hc
    exact decide_eq_true fun heq => h (heq ▸ hc)

/-- A mark that is not behind is in front. -/
theorem exists_of_append_eq_append_mark {front back left right : List β} (h : front ++ back = left ++ mark :: right)
    (hback : mark ∉ back) : ∃ middle, front = left ++ mark :: middle ∧ right = middle ++ back := by
  obtain ⟨part, -, hpart⟩ | ⟨part, hfront, hpart⟩ := List.append_eq_append_iff.1 h
  · exact absurd (hpart ▸ List.mem_append_right _ (List.mem_cons_self ..)) hback
  · cases part with
    | nil =>
      rw [List.nil_append] at hpart
      exact absurd (hpart ▸ List.mem_cons_self ..) hback
    | cons c middle =>
      obtain ⟨rfl, rfl⟩ := List.cons.inj hpart
      exact ⟨middle, hfront, rfl⟩

/-- What stands behind the last mark. -/
theorem append_mark_inj {front₁ front₂ back₁ back₂ : List β} (h₁ : mark ∉ back₁) (h₂ : mark ∉ back₂)
    (h : front₁ ++ mark :: back₁ = front₂ ++ mark :: back₂) : front₁ = front₂ ∧ back₁ = back₂ := by
  have happend : (front₁ ++ [mark]) ++ back₁ = front₂ ++ mark :: back₂ := by simpa using h
  obtain ⟨middle, hfront, rfl⟩ := exists_of_append_eq_append_mark happend h₁
  obtain rfl | ⟨middle, c, rfl⟩ := middle.eq_nil_or_concat
  · exact ⟨List.append_cancel_right hfront, rfl⟩
  · have hlast : front₁ ++ [mark] = (front₂ ++ mark :: middle) ++ [c] := by simpa using hfront
    obtain rfl := List.singleton_inj.1 (List.append_inj_right' hlast rfl)
    exact absurd (by simp) h₂

/-- A list can be cut at the last place where something with the property stands. -/
theorem exists_last_mark {text : List β} (h : ∃ c ∈ text, p c = true) :
    ∃ front c back, text = front ++ c :: back ∧ p c = true ∧ ∀ d ∈ back, p d = false := by
  obtain ⟨c, hmem, hc⟩ := h
  obtain ⟨last, hlast⟩ := Option.isSome_iff_exists.1 (List.find?_isSome.2 ⟨c, List.mem_reverse.2 hmem, hc⟩)
  obtain ⟨hp, back, front, hcut, hback⟩ := List.find?_eq_some_iff_append.1 hlast
  refine ⟨front.reverse, last, back.reverse, ?_, hp, fun d hd => ?_⟩
  · rw [← List.reverse_reverse text, hcut]
    simp
  · simpa using hback d (List.mem_reverse.1 hd)

/-- Where passing has stopped, nothing more can be passed. -/
theorem takeWhile_dropWhile (p : β → Bool) (text : List β) : (text.dropWhile p).takeWhile p = [] := by
  induction text with
  | nil => rfl
  | cons c text ih =>
    by_cases hc : p c
    · rw [List.dropWhile_cons_of_pos hc, ih]
    · rw [List.dropWhile_cons_of_neg hc, List.takeWhile_cons_of_neg hc]

end SpeechDispatch
