import Mathlib.Data.List.Infix
import ProtoSchema.Proofs.Draft.Building
/-! # Scopes

The namespaces in which a name is looked up are the full names of the messages around
it, from the inside to the outside, and then the packages of the file.
-/

namespace ProtoSchema

/-! ## Packages -/

def packageParts : Option String → List String
  | some package => Text.splitString '.' package
  | none => []

/-- The prefixes that a package with all its outer packages gives to a name: those of
all beginnings of its parts, the longest first. -/
def packagePrefixes (package : Option String) : List String :=
  (packageParts package).inits.reverse.map fun beginning =>
    "." ++ String.join (beginning.map (· ++ "."))

example : packagePrefixes (some "a.b") = [".a.b.", ".a.", "."] := by decide +kernel

theorem reverse_inits_append_singleton {α : Type} (parts : List α) (part : α) :
    (parts ++ [part]).inits.reverse = (parts ++ [part]) :: parts.inits.reverse := by
  simp

theorem head?_reverse_inits {α : Type} (parts : List α) :
    parts.inits.reverse.head? = some parts := by
  induction parts using List.reverseRecOn with
  | nil => rfl
  | append_singleton parts part _ => rw [reverse_inits_append_singleton, List.head?_cons]

/-- Each part of a package puts one more namespace in front. -/
theorem foldl_scope (parts : List String) :
    parts.foldl (fun (scope : List String) part => (scope.headD "." ++ part ++ ".") :: scope)
        ["."] =
      parts.inits.reverse.map fun beginning => "." ++ String.join (beginning.map (· ++ ".")) := by
  induction parts using List.reverseRecOn with
  | nil => rfl
  | append_singleton parts part induction =>
      have longest : ((parts.inits.reverse.map fun beginning =>
          "." ++ String.join (beginning.map (· ++ "."))).headD ".") =
          "." ++ String.join (parts.map (· ++ ".")) := by
        rw [List.headD_eq_head?_getD, List.head?_map, head?_reverse_inits]
        rfl
      rw [List.foldl_append, induction, List.foldl_cons, List.foldl_nil, longest,
        reverse_inits_append_singleton, List.map_cons]
      simp [String.append_assoc]

theorem packageScope_eq (package : Option String) :
    packageScope package = packagePrefixes package := by
  cases package with
  | none => rfl
  | some package => exact foldl_scope (Text.splitString '.' package)

/-- The packages around a file begin with a dot. -/
theorem dotted_packageScope (package : Option String) :
    ∀ namespaceName ∈ packageScope package, namespaceName.toList.head? = some '.' := by
  intro namespaceName member
  rw [packageScope_eq, packagePrefixes] at member
  rcases List.mem_map.mp member with ⟨parts, -, rfl⟩
  rw [String.toList_append]
  rfl

theorem dotted_append {namespaceName : String}
    (dot : namespaceName.toList.head? = some '.') (written : String) :
    (namespaceName ++ written).toList.head? = some '.' := by
  rw [String.toList_append, List.head?_append, dot, Option.some_or]

/-- Pieces that all end with the separator are the joined text and one more
separator. -/
theorem flatMap_append_separator {separator : Char} {pieces : List (List Char)}
    (notNil : pieces ≠ []) :
    (pieces.flatMap fun piece => piece ++ [separator]) =
      Text.join separator pieces ++ [separator] := by
  induction pieces with
  | nil => exact absurd rfl notNil
  | cons piece pieces induction =>
      cases pieces with
      | nil => simp [Text.join]
      | cons next rest =>
          have joined : Text.join separator (piece :: next :: rest) =
              piece ++ separator :: Text.join separator (next :: rest) := rfl
          rw [List.flatMap_cons, induction (List.cons_ne_nil next rest), joined]
          simp only [List.append_assoc, List.cons_append, List.nil_append]

/-- The innermost prefix of a package is its namespace. -/
theorem head?_packageScope (package : Option String) :
    (packageScope package).head? = some (packageNamespace package) := by
  rw [packageScope_eq, packagePrefixes, List.head?_map, head?_reverse_inits, Option.map_some]
  cases package with
  | none => rfl
  | some package =>
      have pieces := @flatMap_append_separator '.' _ (Text.split_ne_nil '.' package.toList)
      rw [Text.join_split] at pieces
      have joined : String.join ((packageParts (some package)).map (· ++ ".")) =
          package ++ "." := by
        apply String.toList_inj.mp
        rw [String.toList_join, String.toList_append, packageParts, Text.splitString,
          List.map_map, List.flatMap_map]
        simpa using pieces
      rw [packageNamespace, joined, String.append_assoc]

/-! ## Messages -/

/-- The prefixes that are tried for a name in a declaration: those of the messages
around it, and then those of the place `parent` at which all of them stand. -/
inductive Nesting (file : FileId) (messages : Array Message) (parent : Parent)
    (prefixes : List String) : Parent → List String → Prop
  | here : Nesting file messages parent prefixes parent prefixes
  | inside {index : Nat} {message : Message} {outer : List String}
      (present : messages[index]? = some message)
      (named : outer.head?.map (· ++ message.name) = some message.fullName)
      (around : Nesting file messages parent prefixes message.parent outer) :
      Nesting file messages parent prefixes (.message ⟨file, index⟩)
        ((message.fullName ++ ".") :: outer)

namespace Nesting

variable {file : FileId} {messages more : Array Message} {parent inner : Parent}
  {prefixes scope : List String}

/-- More messages do not change what stands around a declaration. -/
theorem mono (nesting : Nesting file messages parent prefixes inner scope)
    (kept : ∀ (index : Nat) message, messages[index]? = some message →
      more[index]? = some message) :
    Nesting file more parent prefixes inner scope := by
  induction nesting with
  | here => exact .here
  | inside present named _ induction => exact .inside (kept _ _ present) named induction

/-- What stands in a message stands wherever the message does. -/
theorem trans {middle : Parent} {between : List String}
    (inside : Nesting file messages middle between inner scope)
    (around : Nesting file messages parent prefixes middle between) :
    Nesting file messages parent prefixes inner scope := by
  induction inside with
  | here => exact around
  | inside present named _ induction => exact .inside present named induction

/-- Linking the fields of messages does not change what stands around a
declaration. -/
theorem map (nesting : Nesting file messages parent prefixes inner scope)
    {link : Message → Message} (name : ∀ message, (link message).name = message.name)
    (fullName : ∀ message, (link message).fullName = message.fullName)
    (parents : ∀ message, (link message).parent = message.parent) :
    Nesting file (messages.map link) parent prefixes inner scope := by
  induction nesting with
  | here => exact .here
  | @inside index message outer present named _ induction =>
      rw [← fullName message]
      refine .inside ?_ ?_ ?_
      · rw [Array.getElem?_map, present, Option.map_some]
      · rw [name, fullName]
        exact named
      · rw [parents]
        exact induction

/-- If the outermost prefixes begin with a dot, all of them do. -/
theorem dotted (nesting : Nesting file messages parent prefixes inner scope)
    (outermost : ∀ namespaceName ∈ prefixes, namespaceName.toList.head? = some '.') :
    ∀ namespaceName ∈ scope, namespaceName.toList.head? = some '.' := by
  induction nesting with
  | here => exact outermost
  | @inside index message outer present named _ induction =>
      intro namespaceName member
      rcases List.mem_cons.mp member with rfl | member
      · rcases Option.map_eq_some_iff.mp named with ⟨first, isFirst, equal⟩
        have dot := induction first (List.mem_of_mem_head? isFirst)
        rw [← equal, String.toList_append, String.toList_append]
        simp [List.head?_append, dot]
      · exact induction namespaceName member

end Nesting

namespace Draft

/-! ## Where declarations stand -/

def MessageStands (file : FileId) (messages : Array Message) (place : Place)
    (message : Message) : Prop :=
  ∃ outer, Nesting file messages place.parent place.scope message.parent outer ∧
    outer.head?.map (· ++ message.name) = some message.fullName ∧
    message.scope = (message.fullName ++ ".") :: outer

/-- All messages and extend blocks that were added stand at a place or in one of the
added messages. -/
structure Stands (file : FileId) (place : Place) (before after : Numbered) : Prop where
  message : ∀ (index : Nat) message, after.messages[index]? = some message →
    before.messages[index]? = some message ∨
      MessageStands file after.messages place message
  extension : ∀ (index : Nat) extension, after.extensions[index]? = some extension →
    before.extensions[index]? = some extension ∨
      Nesting file after.messages place.parent place.scope extension.parent extension.scope

theorem Builds.stands {source : Source} {place : Place} {before after : Contents × Numbered}
    (builds : Builds source place before after)
    (coherent : place.scope.head? = some place.namespaceName) :
    Stands source.file place before.2 after.2 := by
  induction builds with
  | done place state => exact ⟨fun _ _ => .inl, fun _ _ => .inl⟩
  | field place declared contents numbered => exact ⟨fun _ _ => .inl, fun _ _ => .inl⟩
  | oneof place declared contents numbered => exact ⟨fun _ _ => .inl, fun _ _ => .inl⟩
  | enum place declared state => exact ⟨fun _ _ => .inl, fun _ _ => .inl⟩
  | extend place declared state =>
      refine ⟨fun _ _ => .inl, fun index extension present => ?_⟩
      simp only [addExtend, Array.getElem?_push] at present
      split at present
      · cases present
        exact .inr .here
      · exact .inl present
  | next first rest firstInduction restInduction =>
      have early := firstInduction coherent
      have late := restInduction coherent
      refine ⟨fun index message present => ?_, fun index extension present => ?_⟩
      · rcases late.message index message present with present | stands
        · rcases early.message index message present with present | ⟨outer, nesting, stands⟩
          · exact .inl present
          · exact .inr ⟨outer, nesting.mono rest.keeps.message, stands⟩
        · exact .inr stands
      · rcases late.extension index extension present with present | stands
        · rcases early.extension index extension present with present | nesting
          · exact .inl present
          · exact .inr (nesting.mono rest.keeps.message)
        · exact .inr stands
  | @message place declared contents inner numbered after inside induction =>
      have within := induction rfl
      have kept := (Keeps.pushMessage after (nextMessage source place declared inner after)).message
      have named : place.scope.head?.map (· ++ declared.name.name) =
          some (nextMessage source place declared inner after).fullName := by
        rw [coherent]
        rfl
      -- What was added inside stands in the new message, which stands at the place.
      have around : Nesting source.file
          (withMessage source place declared contents inner after).2.messages
          place.parent place.scope (placeInside source place declared after).parent
          (placeInside source place declared after).scope :=
        @Nesting.inside _ _ _ _ after.messages.size
          (nextMessage source place declared inner after) place.scope
          (by simp [withMessage]) named .here
      refine ⟨fun index message present => ?_, fun index extension present => ?_⟩
      · simp only [withMessage, Array.getElem?_push] at present
        split at present
        · cases present
          exact .inr ⟨place.scope, .here, named, rfl⟩
        · rcases within.message index message present with present | ⟨outer, nesting, stands⟩
          · exact .inl present
          · exact .inr ⟨outer, (nesting.mono kept).trans around, stands⟩
      · rcases within.extension index extension present with present | nesting
        · exact .inl present
        · exact .inr ((nesting.mono kept).trans around)

/-- Every message and every extend block of a file stands at the top level or in a
message of the file. -/
theorem stands_fileState (id : FileId) (name source : String) (tree : Syntax.File) :
    Stands id (filePlace id tree) {} (fileState id name source tree).2 :=
  (builds_fileState id name source tree).stands (head?_packageScope (filePackage tree))

end Draft

end ProtoSchema
