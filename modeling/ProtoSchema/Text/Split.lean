/-!
## Splitting and joining

A text is cut at every occurrence of a separator; the pieces never contain it,
and there is always one piece more than there are separators.
-/

namespace ProtoSchema.Text

/-- The pieces between the separators, empty ones included. -/
def split (separator : Char) : List Char → List (List Char)
  | [] => [[]]
  | character :: rest =>
      if character = separator then [] :: split separator rest
      else
        match split separator rest with
        | [] => [[character]]
        | piece :: pieces => (character :: piece) :: pieces

/-- The pieces one after another, with the separator between two of them. -/
def join (separator : Char) : List (List Char) → List Char
  | [] => []
  | [piece] => piece
  | piece :: pieces => piece ++ separator :: join separator pieces

theorem split_ne_nil (separator : Char) (characters : List Char) :
    split separator characters ≠ [] := by
  cases characters with
  | nil => simp [split]
  | cons character rest =>
      simp only [split]
      split
      · simp
      · split <;> simp

/-- Splitting loses nothing. -/
theorem join_split (separator : Char) (characters : List Char) :
    join separator (split separator characters) = characters := by
  induction characters with
  | nil => rfl
  | cons character rest ih =>
      have notNil := split_ne_nil separator rest
      unfold split
      cases pieces : split separator rest with
      | nil => exact absurd pieces notNil
      | cons piece more =>
          rw [pieces] at ih
          split
          · next equal => simp [join, ih, equal]
          · cases more with
            | nil => simpa [join] using ih
            | cons _ _ => simpa [join] using ih

/-- No piece contains the separator. -/
theorem not_mem_of_mem_split {separator : Char} {characters piece : List Char}
    (member : piece ∈ split separator characters) : separator ∉ piece := by
  induction characters generalizing piece with
  | nil => simp_all [split]
  | cons character rest ih =>
      unfold split at member
      split at member
      · rcases List.mem_cons.1 member with equal | member
        · simp [equal]
        · exact ih member
      · next different =>
        split at member
        · rw [List.mem_singleton.1 member]
          simpa using Ne.symm different
        · next first more pieces =>
          rw [pieces] at ih
          rcases List.mem_cons.1 member with equal | member
          · rw [equal, List.mem_cons, not_or]
            exact ⟨Ne.symm different, ih List.mem_cons_self⟩
          · exact ih (List.mem_cons_of_mem _ member)

/-- A text without the separator is a single piece. -/
theorem split_of_not_mem {separator : Char} {piece : List Char} (absent : separator ∉ piece) :
    split separator piece = [piece] := by
  induction piece with
  | nil => rfl
  | cons character rest ih =>
      rw [List.mem_cons, not_or] at absent
      simp [split, Ne.symm absent.1, ih absent.2]

/-- The first separator ends the first piece. -/
theorem split_append_cons {separator : Char} {piece : List Char} (absent : separator ∉ piece)
    (rest : List Char) :
    split separator (piece ++ separator :: rest) = piece :: split separator rest := by
  induction piece with
  | nil => simp [split]
  | cons character more ih =>
      rw [List.mem_cons, not_or] at absent
      simp [split, Ne.symm absent.1, ih absent.2]

/-- Pieces without the separator are found again. -/
theorem split_join {separator : Char} {pieces : List (List Char)} (notNil : pieces ≠ [])
    (absent : ∀ piece ∈ pieces, separator ∉ piece) :
    split separator (join separator pieces) = pieces := by
  induction pieces with
  | nil => exact absurd rfl notNil
  | cons piece rest ih =>
      have here := absent piece List.mem_cons_self
      cases rest with
      | nil => exact split_of_not_mem here
      | cons next more =>
          rw [join, split_append_cons here]
          · rw [ih (by simp) fun other member => absent other (List.mem_cons_of_mem _ member)]
          · simp

def splitString (separator : Char) (text : String) : List String :=
  (split separator text.toList).map String.ofList

end ProtoSchema.Text
