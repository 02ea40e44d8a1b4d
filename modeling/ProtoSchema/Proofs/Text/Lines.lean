import Mathlib.Data.Nat.Basic
import Mathlib.Order.Basic
import ProtoSchema.Text.Position
/-! # Lines

The two ways to number lines agree on a source that has no carriage return without a line feed:
the line of an offset is one more than the number of line feeds before it.
-/

namespace ProtoSchema.Text

/-- The line feeds before an offset. -/
def feedsBefore (source : List UInt8) (offset : Nat) : Nat :=
  (source.take offset).count 0x0A

theorem feedsBefore_zero (source : List UInt8) : feedsBefore source 0 = 0 :=
  rfl

theorem feedsBefore_cons_succ (byte : UInt8) (source : List UInt8) (offset : Nat) :
    feedsBefore (byte :: source) (offset + 1) =
      feedsBefore source offset + if byte = 0x0A then 1 else 0 := by
  simp [feedsBefore, List.count_cons]

theorem feedsBefore_append (front back : List UInt8) (offset : Nat) :
    feedsBefore (front ++ back) offset =
      feedsBefore front offset + feedsBefore back (offset - front.length) := by
  rw [feedsBefore, List.take_append, List.count_append]
  rfl

/-- Every carriage return has a line feed behind it. -/
def ReturnsPaired (source : List UInt8) : Prop :=
  ∀ index : Nat, source[index]? = some 0x0D → source[index + 1]? = some 0x0A

theorem returnsPaired_iff {source : List UInt8} :
    ReturnsPaired source ↔
      ∀ index < source.length, source[index]? = some 0x0D → source[index + 1]? = some 0x0A := by
  refine ⟨fun paired index _ => paired index, fun inside index carriage => ?_⟩
  exact inside index (List.getElem?_eq_some_iff.mp carriage).1 carriage

instance (source : List UInt8) : Decidable (ReturnsPaired source) :=
  decidable_of_iff' _ returnsPaired_iff

theorem ReturnsPaired.tail {byte : UInt8} {source : List UInt8}
    (paired : ReturnsPaired (byte :: source)) : ReturnsPaired source :=
  fun index carriage => paired (index + 1) carriage

/-! ## Ascending offsets -/

def Ascending (starts : Array Nat) : Prop :=
  ∀ (low high : Nat) (before : low < high) (inside : high < starts.size),
    starts[low] < starts[high]

/-- An offset has its place between two indices. -/
structure Encloses (starts : Array Nat) (offset low high : Nat) : Prop where
  below : ∀ (index : Nat) (inside : index < starts.size), index < low → starts[index] < offset
  above : ∀ (index : Nat) (inside : index < starts.size), high ≤ index → offset < starts[index]

theorem Encloses.whole (starts : Array Nat) (offset : Nat) :
    Encloses starts offset 0 starts.size where
  below _ _ none := absurd none (Nat.not_lt_zero _)
  above _ inside beyond := absurd inside (Nat.not_lt_of_le beyond)

/-- What a search may answer. -/
def Rank.Fits (starts : Array Nat) (offset : Nat) : Rank → Prop
  | found index => starts[index]? = some offset
  | before index => index ≤ starts.size ∧ Encloses starts offset index index

theorem fits_search {starts : Array Nat} (ascending : Ascending starts) {offset low high : Nat}
    (inside : high ≤ starts.size) (order : low ≤ high)
    (encloses : Encloses starts offset low high) :
    (search starts offset low high inside).Fits starts offset := by
  fun_induction search starts offset low high inside with
  | case1 low high inside between middle start same =>
      exact (Array.getElem?_eq_getElem _).trans (congrArg some same)
  | case2 low high inside between middle start other less induction =>
      refine induction (by omega) ⟨fun index here before => ?_, encloses.above⟩
      rcases Nat.lt_or_eq_of_le (Nat.le_of_lt_succ before) with before | rfl
      · exact (ascending index middle before _).trans less
      · exact less
  | case3 low high inside between middle start other notLess induction =>
      have greater : offset < start := by omega
      refine induction (by omega) ⟨encloses.below, fun index here after => ?_⟩
      rcases Nat.lt_or_eq_of_le after with after | rfl
      · exact greater.trans (ascending middle index after here)
      · exact greater
  | case4 low high inside empty =>
      cases Nat.le_antisymm order (Nat.le_of_not_lt empty)
      exact ⟨inside, encloses⟩

/-- The offsets up to a given one are those before an index. -/
theorem countP_le_eq {starts : Array Nat} {offset index : Nat} (inside : index ≤ starts.size)
    (below : ∀ (place : Nat) (here : place < starts.size), place < index →
      starts[place] ≤ offset)
    (above : ∀ (place : Nat) (here : place < starts.size), index ≤ place →
      offset < starts[place]) :
    starts.toList.countP (· ≤ offset) = index := by
  have front : (starts.toList.take index).countP (· ≤ offset) = index := by
    rw [List.countP_eq_length.mpr, List.length_take, Array.length_toList, Nat.min_eq_left inside]
    intro start member
    rcases List.mem_take_iff_getElem.mp member with ⟨place, here, rfl⟩
    exact decide_eq_true (below place (by simp at here; omega) (by omega))
  have back : (starts.toList.drop index).countP (· ≤ offset) = 0 := by
    rw [List.countP_eq_zero]
    intro start member
    rcases List.mem_drop_iff_getElem.mp member with ⟨place, here, rfl⟩
    have greater := above (index + place) (by simpa [Nat.add_comm] using here)
      (Nat.le_add_right _ _)
    simpa using greater
  rw [← List.take_append_drop index starts.toList, List.countP_append, front, back,
    Nat.add_zero]

theorem lineAmong_eq {starts : Array Nat} (ascending : Ascending starts) (offset : Nat) :
    lineAmong starts offset = starts.toList.countP (· ≤ offset) + 1 := by
  have fits := fits_search ascending le_rfl (Nat.zero_le _) (Encloses.whole starts offset)
  rw [lineAmong]
  cases rank : search starts offset 0 starts.size le_rfl with
  | found index =>
      rw [rank] at fits
      rcases Array.getElem?_eq_some_iff.mp fits with ⟨inside, rfl⟩
      rw [countP_le_eq inside]
      · intro place here before
        rcases Nat.lt_or_eq_of_le (Nat.le_of_lt_succ before) with before | rfl
        · exact (ascending place index before inside).le
        · exact le_rfl
      · exact fun place here after => ascending index place after here
  | before index =>
      rw [rank] at fits
      rcases fits with ⟨inside, encloses⟩
      rw [countP_le_eq inside (fun place here before => (encloses.below place here before).le)
        encloses.above]

/-! ## Line starts -/

/-- The offsets behind the line feeds of some bytes, of which the first is at an offset. -/
def startsFrom (offset : Nat) : List UInt8 → List Nat
  | [] => []
  | byte :: source =>
      if byte = 0x0A then (offset + 1) :: startsFrom (offset + 1) source
      else startsFrom (offset + 1) source

theorem filterMap_zipIdx_eq (source : List UInt8) (offset : Nat) :
    ((source.zipIdx offset).filterMap fun (byte, offset) =>
      if byte = 0x0A then some (offset + 1) else none) = startsFrom offset source := by
  induction source generalizing offset with
  | nil => rfl
  | cons byte source induction =>
      rw [List.zipIdx_cons, List.filterMap_cons, induction, startsFrom]
      split <;> simp_all

theorem toList_lineStarts (source : List UInt8) :
    (lineStarts source).toList = startsFrom 0 source := by
  rw [lineStarts, List.toList_toArray, filterMap_zipIdx_eq]

theorem lt_of_mem_startsFrom {source : List UInt8} {offset start : Nat}
    (member : start ∈ startsFrom offset source) : offset < start := by
  induction source generalizing offset with
  | nil => cases member
  | cons byte source induction =>
      rw [startsFrom] at member
      split at member
      · rcases List.mem_cons.mp member with rfl | member
        · exact Nat.lt_succ_self offset
        · exact (Nat.lt_succ_self offset).trans (induction member)
      · exact (Nat.lt_succ_self offset).trans (induction member)

theorem pairwise_startsFrom (source : List UInt8) (offset : Nat) :
    (startsFrom offset source).Pairwise (· < ·) := by
  induction source generalizing offset with
  | nil => exact .nil
  | cons byte source induction =>
      rw [startsFrom]
      split
      · exact .cons (fun start => lt_of_mem_startsFrom) (induction (offset + 1))
      · exact induction (offset + 1)

theorem ascending_lineStarts (source : List UInt8) : Ascending (lineStarts source) := by
  intro low high before inside
  have pairwise := pairwise_startsFrom source 0
  rw [← toList_lineStarts, List.pairwise_iff_getElem] at pairwise
  exact pairwise low high (before.trans inside) inside before

/-- The lines that begin up to a place are begun by the line feeds before it. -/
theorem countP_startsFrom (source : List UInt8) (offset count : Nat) :
    (startsFrom offset source).countP (· ≤ offset + count) = feedsBefore source count := by
  induction source generalizing offset count with
  | nil => simp [startsFrom, feedsBefore]
  | cons byte source induction =>
      cases count with
      | zero =>
          rw [feedsBefore_zero, List.countP_eq_zero]
          intro start member
          have later := lt_of_mem_startsFrom member
          simpa using later
      | succ count =>
          have rest := induction (offset + 1) count
          rw [Nat.add_right_comm, Nat.add_assoc] at rest
          rw [feedsBefore_cons_succ, startsFrom]
          split
          · rw [List.countP_cons_of_pos (by simp), rest]
          · exact rest

/-- The line that is found among the line starts of a source. -/
theorem lineNumber_eq (source : List UInt8) (offset : Nat) :
    lineNumber source offset = feedsBefore source offset + 1 := by
  have count := countP_startsFrom source 0 offset
  rw [Nat.zero_add, ← toList_lineStarts] at count
  rw [lineNumber, lineAmong_eq (ascending_lineStarts source), count]

/-! ## Positions -/

namespace Position

variable {span : Span} {cursor : Cursor} {bytes : List UInt8}

/-- What a scan leads to that has some bytes before it: a cursor in the line in which the span
begins. -/
def Reaches (span : Span) (cursor : Cursor) (bytes : List UInt8) (reached : Option Cursor) : Prop :=
  ∃ last, reached = some last ∧
    last.line = cursor.line + feedsBefore bytes (span.start - cursor.offset)

/-- The line ends that bytes hold before the span are counted while they are passed. -/
structure Passes (span : Span) (cursor next : Cursor) (bytes : List UInt8) : Prop where
  offset_eq : next.offset + 1 = cursor.offset + bytes.length
  line_eq : next.line = cursor.line + feedsBefore bytes (span.start - cursor.offset)

theorem passes_pair (span : Span) (cursor : Cursor) :
    Passes span cursor (cursor.passLineEnd span.start 2) [0x0D, 0x0A] := by
  rw [Cursor.passLineEnd]
  split
  · next early =>
      have both : span.start - cursor.offset = span.start - cursor.offset - 2 + 2 := by omega
      exact ⟨rfl, by rw [both]; simp [feedsBefore]⟩
  · next late =>
      have few : span.start - cursor.offset = 0 ∨ span.start - cursor.offset = 1 := by omega
      refine ⟨rfl, ?_⟩
      rcases few with none | one
      · rw [none]
        rfl
      · rw [one]
        rfl

theorem passes_feed (span : Span) (cursor : Cursor) :
    Passes span cursor (cursor.passLineEnd span.start 1) [0x0A] := by
  rw [Cursor.passLineEnd]
  split
  · next early =>
      have before : span.start - cursor.offset = span.start - cursor.offset - 1 + 1 := by omega
      exact ⟨rfl, by rw [before]; simp [feedsBefore]⟩
  · next late =>
      have none : span.start - cursor.offset = 0 := by omega
      exact ⟨rfl, by rw [none]; rfl⟩

theorem passes_byte (span : Span) (cursor : Cursor) {byte : UInt8} (other : byte ≠ 0x0A) :
    Passes span cursor (cursor.passByte span.start) [byte] := by
  have without : feedsBefore [byte] (span.start - cursor.offset) = 0 := by
    cases span.start - cursor.offset with
    | zero => rfl
    | succ count => simp [feedsBefore, other]
  rw [Cursor.passByte]
  split <;> exact ⟨rfl, by rw [without]; rfl⟩

/-- The cursor has come to the last byte of what it passes. Unless this is the last byte of the
span, the scan goes on behind it. -/
theorem Passes.reaches {next : Cursor} {rest : List UInt8} (passes : Passes span cursor next bytes)
    (filled : 0 < span.length)
    (scans : next.offset + 1 < span.start + span.length →
      Reaches span { next with offset := next.offset + 1 } rest
        (scan span { next with offset := next.offset + 1 } rest)) :
    Reaches span cursor (bytes ++ rest) (scan.finish span next rest) := by
  have behind : span.start - cursor.offset - bytes.length = span.start - (next.offset + 1) := by
    rw [passes.offset_eq, Nat.sub_sub]
  rw [Reaches, feedsBefore_append, ← Nat.add_assoc, ← passes.line_eq, behind, scan.finish]
  split
  · refine ⟨next, rfl, ?_⟩
    have passed : span.start - (next.offset + 1) = 0 := by omega
    rw [passed, feedsBefore_zero, Nat.add_zero]
  · exact scans (by omega)

/-- A scan counts the line feeds before the span: no carriage return ends a line alone. -/
theorem reaches_scan (filled : 0 < span.length) (paired : ReturnsPaired bytes)
    (begun : cursor.offset < span.start + span.length)
    (inside : span.start + span.length ≤ cursor.offset + bytes.length) :
    Reaches span cursor bytes (scan span cursor bytes) := by
  induction count : bytes.length using Nat.strong_induction_on generalizing cursor bytes with
  | _ count induction =>
      subst count
      have goesOn {next : Cursor} {passed rest : List UInt8} (split : bytes = passed ++ rest)
          (passes : Passes span cursor next passed) (some : 0 < passed.length)
          (paired : ReturnsPaired rest) :
          Reaches span cursor bytes (scan.finish span next rest) := by
        have offset := passes.offset_eq
        rw [split, List.length_append] at inside
        rw [split]
        refine passes.reaches filled fun begun => ?_
        refine induction rest.length ?_ paired begun (by dsimp only; omega) rfl
        rw [split, List.length_append]
        omega
      rw [scan.eq_def]
      split
      · exact absurd begun (Nat.not_lt_of_le inside)
      · exact goesOn rfl (passes_pair span cursor) (by decide) paired.tail.tail
      · next rest unpaired =>
          -- a carriage return without a line feed
          have feed := paired 0 rfl
          cases rest with
          | nil => cases feed
          | cons byte rest =>
              cases feed
              exact absurd rfl (unpaired rest)
      · exact goesOn rfl (passes_feed span cursor) (by decide) paired.tail
      · next byte rest _ _ other =>
          refine goesOn rfl (passes_byte span cursor ?_) Nat.one_pos paired.tail
          exact other

end Position

/-- The line that a scan finds. -/
theorem exists_position {source : List UInt8} (paired : ReturnsPaired source) {span : Span}
    (filled : span.start < span.stop) (inside : span.stop ≤ source.length) :
    ∃ position, position? source span = some position ∧
      position.line = feedsBefore source span.start + 1 := by
  have stop : span.start + span.length = span.stop := Nat.add_sub_cancel' filled.le
  have reaches : Position.Reaches span ⟨0, 0, 0⟩ source (Position.scan span ⟨0, 0, 0⟩ source) :=
    Position.reaches_scan (Nat.sub_pos_of_lt filled) paired (by dsimp only; omega)
      (by dsimp only; omega)
  rcases reaches with ⟨last, reached, line⟩
  refine ⟨⟨last.line + 1, last.column + 1⟩, ?_, ?_⟩
  · rw [position?, reached]
    rfl
  · rw [line, Nat.zero_add]
    rfl

end ProtoSchema.Text
