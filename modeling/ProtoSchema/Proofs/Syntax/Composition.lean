import Mathlib.Data.List.Basic
import ProtoSchema.Proofs.Syntax.Sentences
/-! # Sentences part by part

What is said of a sentence and a list, such as the spans of its parts, often follows from what
is said of the parts of the sentence and the parts of the list.
-/

namespace ProtoSchema.Syntax.Grammar

/-- What is said of sentences and lists holds of nothing, and of sentences that follow each other
if it holds of each of them. -/
structure Composes {β : Type} (Gives : List Lexeme → List β → Prop) : Prop where
  nothing : ∀ {sentence : List Lexeme}, Gives sentence []
  append : ∀ {front back : List Lexeme} {values more : List β}, Gives front values →
    Gives back more → Gives (front ++ back) (values ++ more)

namespace Composes

variable {α β : Type} {Gives : List Lexeme → List β → Prop} (composes : Composes Gives)
  {sentence : List Lexeme} {values : List β}
include composes

/-- The beginning of a sentence may give nothing. -/
theorem after (gives : Gives sentence values) (front : List Lexeme) :
    Gives (front ++ sentence) values :=
  composes.append composes.nothing gives

/-- The end of a sentence may give nothing. -/
theorem before (gives : Gives sentence values) (back : List Lexeme) :
    Gives (sentence ++ back) values := by
  have nothing : Gives back [] := composes.nothing
  simpa using composes.append gives nothing

theorem cons (gives : Gives sentence values) (lexeme : Lexeme) :
    Gives (lexeme :: sentence) values :=
  composes.after gives [lexeme]

theorem many {element : Production α} {derived : List α} {parts : α → List β}
    (many : Many element sentence derived)
    (each : ∀ part value, part.length ≤ sentence.length → element part value →
      Gives part (parts value)) : Gives sentence (derived.flatMap parts) := by
  induction many with
  | none => exact composes.nothing
  | @more front back value derived first rest induction =>
      rw [List.length_append] at each
      rw [List.flatMap_cons]
      exact composes.append (each front value (Nat.le_add_right _ _) first)
        (induction fun part value bound =>
          each part value (Nat.le_trans bound (Nat.le_add_left _ _)))

theorem separated {separator : Token} {element : Production α} {derived : List α}
    {parts : α → List β} (separated : Separated separator element sentence derived)
    (each : ∀ part value, element part value → Gives part (parts value)) :
    Gives sentence (derived.flatMap parts) := by
  rcases separated with ⟨first, rest⟩
  rw [List.flatMap_cons]
  refine composes.append (each _ _ first) (composes.many rest fun part value _ written => ?_)
  rcases written with @⟨lexeme, part, value, -, written⟩
  exact composes.cons (each part value written) lexeme

/-- Only some of the values may give something. -/
theorem given {γ : Type} {element : Production γ} {derived : List γ} {given : γ → Option α}
    {parts : α → List β} (many : Many element sentence derived)
    (each : ∀ part value found, part.length ≤ sentence.length → element part value →
      given value = some found → Gives part (parts found)) :
    Gives sentence ((derived.filterMap given).flatMap parts) := by
  have flat : (derived.filterMap given).flatMap parts =
      derived.flatMap fun value => (given value).toList.flatMap parts := by
    rw [List.filterMap_eq_flatMap_toList, List.flatMap_assoc]
  rw [flat]
  refine composes.many many fun part value bound written => ?_
  cases isGiven : given value with
  | none => exact composes.nothing
  | some found =>
      rw [Option.toList_some, List.flatMap_singleton]
      exact each part value found bound written isGiven

/-- The entries of a body that give something. -/
theorem body {entry : Production Parser.Entry} {entries : List Parser.Entry}
    {given : Parser.Entry → Option α} {parts : α → List β} (body : Body entry sentence entries)
    (blank : given .blank = none)
    (each : ∀ part found value, part.length < sentence.length → entry part found →
      given found = some value → Gives part (parts value)) :
    Gives sentence ((entries.filterMap given).flatMap parts) := by
  rcases body with @⟨open_, close, inside, _, -, many, -⟩
  have shorter : inside.length < (open_ :: (inside ++ [close])).length := by
    simp only [List.length_cons, List.length_append]
    omega
  refine composes.cons (composes.before (composes.given many ?_) [close]) open_
  intro part found value bound element isGiven
  cases element with
  | blank => cases blank.symm.trans isGiven
  | entry inner => exact each part found value (Nat.lt_of_le_of_lt bound shorter) inner isGiven

theorem body_map {entry : Production Parser.Entry} {entries : List Parser.Entry}
    {given : Parser.Entry → Option α} {own : α → β} (body : Body entry sentence entries)
    (blank : given .blank = none)
    (each : ∀ part found value, part.length < sentence.length → entry part found →
      given found = some value → Gives part [own value]) :
    Gives sentence ((entries.filterMap given).map own) := by
  rw [List.map_eq_flatMap]
  exact composes.body body blank each

end Composes

end ProtoSchema.Syntax.Grammar
