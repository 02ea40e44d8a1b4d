import ProtoSchema.Proofs.Syntax.Recovery
import ProtoSchema.Resolver
/-! # Paths below a directory

A name that can be imported is a path of plain parts. Joined to a directory it adds these parts
to the components of the directory, however the directory is written; and what a path has beyond
the components of a directory is the name under which its file is imported from there.
-/

namespace ProtoSchema

namespace Text

theorem splitString_ne_nil (separator : Char) (text : String) : splitString separator text ≠ [] :=
  mt List.map_eq_nil_iff.mp (split_ne_nil separator text.toList)

/-- A separator between two texts separates their pieces. -/
theorem split_append (separator : Char) (front back : List Char) :
    split separator (front ++ separator :: back) =
      split separator front ++ split separator back := by
  induction front with
  | nil => simp [split]
  | cons first front induction =>
      rw [List.cons_append, split, split, induction]
      split
      · rfl
      · rcases List.exists_cons_of_ne_nil (split_ne_nil separator front) with
          ⟨piece, pieces, same⟩
        rw [same]
        rfl

theorem splitString_append (front back : String) :
    splitString '/' (front ++ "/" ++ back) = splitString '/' front ++ splitString '/' back := by
  have characters : (front ++ "/" ++ back).toList = front.toList ++ '/' :: back.toList := by
    rw [String.toList_append, String.toList_append, List.append_assoc]
    rfl
  rw [splitString, characters, split_append, List.map_append]
  rfl

theorem intercalate_splitString (text : String) :
    "/".intercalate (splitString '/' text) = text := by
  rw [← String.toList_inj, String.toList_intercalate, splitString, List.map_map]
  have pieces : String.toList ∘ String.ofList = id := funext fun _ => String.toList_ofList
  rw [pieces, List.map_id]
  exact (Syntax.join_eq_intercalate '/' _).symm.trans (join_split '/' text.toList)

theorem splitString_intercalate {parts : List String} (filled : parts ≠ [])
    (closed : ∀ part ∈ parts, '/' ∉ part.toList) :
    splitString '/' ("/".intercalate parts) = parts := by
  have characters : ("/".intercalate parts).toList = join '/' (parts.map String.toList) := by
    rw [String.toList_intercalate, Syntax.join_eq_intercalate]
    rfl
  rw [splitString, characters, split_join (mt List.map_eq_nil_iff.mp filled)
    (List.forall_mem_map.mpr closed), List.map_map]
  have texts : String.ofList ∘ String.toList = id := funext fun _ => String.ofList_toList
  rw [texts, List.map_id]

end Text

namespace Path

/-! ## Plain names -/

/-- A name between slashes that stands for itself. -/
structure IsPlain (part : String) : Prop where
  filled : part ≠ ""
  noDot : part ≠ "."
  noDots : part ≠ ".."
  closed : '/' ∉ part.toList

/-- Plain names with a slash between two of them. -/
def IsPlainName (name : String) : Prop :=
  ∃ parts, parts ≠ [] ∧ (∀ part ∈ parts, IsPlain part) ∧ name = "/".intercalate parts

theorem IsPlain.partComponent? {part : String} (plain : IsPlain part) :
    partComponent? part = some (.name part) := by
  rw [Path.partComponent?, if_neg (not_or.mpr ⟨plain.filled, plain.noDot⟩), if_neg plain.noDots]

theorem filterMap_partComponent? {parts : List String} (plain : ∀ part ∈ parts, IsPlain part) :
    parts.filterMap partComponent? = parts.map .name := by
  rw [← List.filterMap_eq_map]
  exact List.filterMap_congr fun part member => (plain part member).partComponent?

theorem closed_of_mem_splitString {text part : String} (member : part ∈ Text.splitString '/' text) :
    '/' ∉ part.toList := by
  rcases List.mem_map.mp member with ⟨characters, inside, rfl⟩
  rw [String.toList_ofList]
  exact Text.not_mem_of_mem_split inside

/-- The parts of a name that can be imported are plain. -/
theorem isPlain_of_isImportName {name : String}
    (accepted : Syntax.Parser.isImportName name = true) :
    ∀ part ∈ Text.splitString '/' name, IsPlain part := by
  intro part member
  rw [Syntax.Parser.isImportName, Bool.and_eq_true, List.all_eq_true] at accepted
  have checked := accepted.2 part member
  simp only [Bool.and_eq_true, bne_iff_ne] at checked
  exact ⟨checked.1.1, checked.1.2, checked.2, closed_of_mem_splitString member⟩

/-! ## Joined paths -/

/-- What a path begins with because of its first part: a slash or a dot. -/
def lead (first : String) (more : List String) : List Component :=
  if first = "" ∧ more ≠ [] then [.root] else if first = "." then [.here] else []

theorem components_eq {path : Path} {first : String} {more : List String}
    (parts : Text.splitString '/' path.text = first :: more) :
    path.components = lead first more ++ (first :: more).filterMap partComponent? := by
  rw [components, parts, lead]
  split
  · next same =>
      rcases List.cons.inj same with ⟨rfl, rfl⟩
      rw [if_pos ⟨rfl, List.cons_ne_nil _ _⟩]
      rfl
  · next same =>
      rcases List.cons.inj same with ⟨rfl, rfl⟩
      rw [if_neg fun rooted => absurd rooted.1 (by decide), if_pos rfl]
      rfl
  · next noRoot noDot =>
      have relative : ¬(first = "" ∧ more ≠ []) := by
        rintro ⟨rfl, filled⟩
        rcases List.exists_cons_of_ne_nil filled with ⟨next, rest, rfl⟩
        exact noRoot next rest rfl
      rw [if_neg relative, if_neg fun dotted => noDot more (by rw [dotted])]
      rfl

theorem lead_append (first : String) (more : List String) {others : List String}
    (filled : others ≠ []) : lead first (more ++ others) = lead first [""] := by
  have longer : more ++ others ≠ [] := List.append_ne_nil_of_right_ne_nil more filled
  simp only [lead, ne_eq, longer, not_false_eq_true, and_true, List.cons_ne_nil]

/-- What follows a slash adds to the components before it. -/
theorem components_append (front back : String) :
    (Path.mk (front ++ "/" ++ back)).components =
      (Path.mk (front ++ "/")).components ++
        (Text.splitString '/' back).filterMap partComponent? := by
  rcases List.exists_cons_of_ne_nil (Text.splitString_ne_nil '/' front) with
    ⟨first, more, parts⟩
  have whole := Text.splitString_append front back
  have ended := Text.splitString_append front ""
  rw [parts, List.cons_append] at whole ended
  rw [String.append_empty] at ended
  rw [components_eq whole, components_eq ended,
    lead_append first more (Text.splitString_ne_nil '/' back),
    lead_append first more (Text.splitString_ne_nil '/' ""), ← List.cons_append,
    ← List.cons_append, List.filterMap_append, List.filterMap_append]
  simp only [List.append_assoc]
  rfl

/-- A slash at the end of a path has no weight. -/
theorem components_append_slash {front : String} (filled : front ≠ "") :
    (Path.mk (front ++ "/")).components = (Path.mk front).components := by
  rcases List.exists_cons_of_ne_nil (Text.splitString_ne_nil '/' front) with
    ⟨first, more, parts⟩
  have ended := Text.splitString_append front ""
  rw [parts, List.cons_append, String.append_empty] at ended
  have same : lead first (more ++ [""]) = lead first more := by
    rw [lead_append first more (List.cons_ne_nil _ _)]
    by_cases rooted : first = ""
    · have longer : more ≠ [] := by
        rintro rfl
        have text := Text.intercalate_splitString front
        rw [parts, rooted] at text
        exact filled text.symm
      simp only [lead, ne_eq, longer, not_false_eq_true, and_true, List.cons_ne_nil]
    · simp only [lead, rooted, false_and]
  have last : (first :: (more ++ [""])).filterMap partComponent? =
      (first :: more).filterMap partComponent? := by
    rw [← List.cons_append, List.filterMap_append]
    exact List.append_nil _
  have pieces : Text.splitString '/' "" = [""] := rfl
  rw [pieces] at ended
  rw [components_eq ended, components_eq parts, same, last]

/-- A name of plain parts adds these parts to the components of a directory. -/
theorem components_join (directory : Path) {name : String}
    (plain : ∀ part ∈ Text.splitString '/' name, IsPlain part) :
    (directory.join name).components =
      directory.components ++ (Text.splitString '/' name).map .name := by
  have names := filterMap_partComponent? plain
  rcases List.exists_cons_of_ne_nil (Text.splitString_ne_nil '/' name) with
    ⟨first, more, parts⟩
  have begins : IsPlain first := plain first (by rw [parts]; exact List.mem_cons_self)
  have relative : name.toList.head? ≠ some '/' := by
    intro slash
    rcases List.head?_eq_some_iff.mp slash with ⟨rest, characters⟩
    rw [Text.splitString, characters, Text.split, if_pos rfl] at parts
    exact begins.filled (List.cons.inj parts).1.symm
  by_cases empty : directory.text = ""
  · have none : directory.components = [] := by
      rw [components, empty]
      rfl
    have lone : lead first more = [] := by
      rw [lead, if_neg fun rooted => begins.filled rooted.1, if_neg begins.noDot]
    rw [join, if_pos (.inr empty), none, @components_eq ⟨name⟩ first more parts, lone, ← parts,
      names]
  rw [join, if_neg (not_or.mpr ⟨relative, empty⟩)]
  split
  · next ends =>
      rcases List.getLast?_eq_some_iff.mp ends with ⟨front, characters⟩
      have text : directory.text = String.ofList front ++ "/" := by
        rw [← String.toList_inj, characters, String.toList_append, String.toList_ofList]
        rfl
      rw [text, components_append, names, ← text]
  · rw [components_append, components_append_slash empty, names]

/-! ## Names below a directory -/

theorem weighty_append {path directory : Path} {parts : List String}
    (components : path.components = directory.components ++ parts.map .name) :
    path.weighty = directory.weighty ++ parts.map .name := by
  rw [weighty, weighty, components, List.filter_append]
  congr 1
  rw [List.filter_eq_self, List.forall_mem_map]
  exact fun part _ => decide_eq_true Component.noConfusion

/-- The name that a component writes, if it is plain. -/
def plainName? : Component → Option String
  | .name part => some part
  | _ => none

theorem mapM_plainName?_eq_some_iff {components : List Component} {parts : List String} :
    components.mapM plainName? = some parts ↔ components = parts.map .name := by
  induction components generalizing parts with
  | nil => cases parts <;> simp
  | cons component components induction =>
      simp only [List.mapM_cons, Option.bind_eq_bind, Option.bind_eq_some_iff, Option.pure_def,
        Option.some.injEq, induction]
      constructor
      · rintro ⟨part, own, parts, rfl, rfl⟩
        cases component <;> cases own
        rfl
      · intro same
        cases parts with
        | nil => cases same
        | cons part parts =>
            rcases List.cons.inj same with ⟨rfl, rfl⟩
            exact ⟨part, rfl, parts, rfl, rfl⟩

theorem importName?_eq_some_iff {components : List Component} {name : String} :
    importName? components = some name ↔
      ∃ parts, parts ≠ [] ∧ components = parts.map .name ∧ name = "/".intercalate parts := by
  have search : importName? components =
      (components.mapM plainName?).bind fun parts =>
        if parts.isEmpty then none else some ("/".intercalate parts) := by
    rw [importName?]
    congr 2
  simp only [search, Option.bind_eq_some_iff, mapM_plainName?_eq_some_iff,
    Option.ite_none_left_eq_some, List.isEmpty_iff, Option.some.injEq]
  constructor
  · rintro ⟨parts, same, filled, rfl⟩
    exact ⟨parts, filled, same, rfl⟩
  · rintro ⟨parts, filled, same, rfl⟩
    exact ⟨parts, same, filled, rfl⟩

/-- The name of a path below a directory: what its components have beyond those of the
directory. -/
theorem nameBelow?_eq_some_iff {directory path : Path} {name : String} :
    directory.nameBelow? path = some name ↔
      ∃ parts, parts ≠ [] ∧ path.weighty = directory.weighty ++ parts.map .name ∧
        name = "/".intercalate parts := by
  simp only [nameBelow?, Option.bind_eq_bind, Option.bind_eq_some_iff,
    List.isPrefixOf?_eq_some_iff_append_eq, importName?_eq_some_iff]
  constructor
  · rintro ⟨rest, same, parts, filled, rfl, rfl⟩
    exact ⟨parts, filled, same.symm, rfl⟩
  · rintro ⟨parts, filled, same, rfl⟩
    exact ⟨parts.map .name, same.symm, parts, filled, rfl, rfl⟩

/-- The names among the components of a path are plain. -/
theorem isPlain_of_mem_weighty {path : Path} {part : String}
    (member : .name part ∈ path.weighty) : IsPlain part := by
  have inPath : .name part ∈ path.components := (List.mem_filter.mp member).1
  rcases List.exists_cons_of_ne_nil (Text.splitString_ne_nil '/' path.text) with
    ⟨first, more, parts⟩
  rw [components_eq parts, ← parts] at inPath
  have inText : .name part ∈ (Text.splitString '/' path.text).filterMap partComponent? := by
    rcases List.mem_append.mp inPath with leading | inText
    · simp only [lead] at leading
      split at leading
      · simp at leading
      · split at leading <;> simp at leading
    · exact inText
  rcases List.mem_filterMap.mp inText with ⟨written, inside, found⟩
  rw [partComponent?] at found
  split at found
  · cases found
  next filled =>
  split at found
  · cases found
  next noDots =>
  cases found
  rw [not_or] at filled
  exact ⟨filled.1, filled.2, noDots, closed_of_mem_splitString inside⟩

/-- A path below a directory is the same as the directory joined with its name there. -/
theorem isSame_join_of_nameBelow? {directory path : Path} {name : String}
    (below : directory.nameBelow? path = some name) :
    IsPlainName name ∧ (directory.join name).isSame path = true := by
  rcases nameBelow?_eq_some_iff.mp below with ⟨parts, filled, components, rfl⟩
  have plain : ∀ part ∈ parts, IsPlain part := by
    intro part member
    apply @isPlain_of_mem_weighty path
    rw [components]
    exact List.mem_append_right _ (List.mem_map_of_mem member)
  have pieces := Text.splitString_intercalate filled fun part member => (plain part member).closed
  have joined := components_join directory (pieces.symm ▸ plain)
  rw [pieces] at joined
  refine ⟨⟨parts, filled, plain, rfl⟩, ?_⟩
  rw [isSame, decide_eq_true_eq, weighty_append joined, components]

/-- A name that can be imported is the name of its path below every directory. -/
theorem nameBelow?_join (directory : Path) {name : String}
    (accepted : Syntax.Parser.isImportName name = true) :
    directory.nameBelow? (directory.join name) = some name := by
  rw [nameBelow?_eq_some_iff]
  exact ⟨Text.splitString '/' name, Text.splitString_ne_nil '/' name,
    weighty_append (components_join directory (isPlain_of_isImportName accepted)),
    (Text.intercalate_splitString name).symm⟩

/-- Paths with the same components have the same name. -/
theorem nameBelow?_eq_of_isSame (directory : Path) {path other : Path}
    (same : path.isSame other = true) : directory.nameBelow? path = directory.nameBelow? other := by
  rw [isSame, decide_eq_true_eq] at same
  rw [nameBelow?, nameBelow?, same]

/-- A path has the components of a directory and then plain names. -/
def LiesBelow (path directory : Path) : Prop :=
  ∃ parts, parts ≠ [] ∧ (∀ part ∈ parts, IsPlain part) ∧
    path.components = directory.components ++ parts.map .name

theorem liesBelow_join (directory : Path) {name : String}
    (accepted : Syntax.Parser.isImportName name = true) :
    (directory.join name).LiesBelow directory :=
  ⟨Text.splitString '/' name, Text.splitString_ne_nil '/' name, isPlain_of_isImportName accepted,
    components_join directory (isPlain_of_isImportName accepted)⟩

end Path

/-- The imports of an accepted source can be imported. -/
theorem Syntax.isImportName_of_parse {name source : String} {tree : File}
    (parsed : parse name source = .ok tree) {statement : Import}
    (member : statement ∈ tree.imports) :
    Parser.isImportName statement.file = true := by
  rcases exists_outline_of_parse parsed with ⟨-, outline, -, rfl, valid⟩
  exact (isImportName_iff statement.file).mpr (valid.imports statement member)

namespace Resolver

/-- Import names correspond to the paths below an include directory. A name is that of the
directory joined with it, a path is the directory joined with its name, and the same paths have
the same name. So an import of an accepted source always lies below the directory. -/
theorem names_correspond (disk : Disk) (directory : Path) :
    (∀ name, Syntax.Parser.isImportName name = true →
      (ofDirectory disk directory).nameOf? (directory.join name) = some name ∧
      (∀ part ∈ Text.splitString '/' name, Path.IsPlain part) ∧
      (directory.join name).components =
        directory.components ++ (Text.splitString '/' name).map .name) ∧
    (∀ file source tree, Syntax.parse file source = .ok tree → ∀ statement ∈ tree.imports,
      (directory.join statement.file).LiesBelow directory) ∧
    (∀ path name, (ofDirectory disk directory).nameOf? path = some name →
      Path.IsPlainName name ∧ (directory.join name).isSame path = true) ∧
    ∀ path other, path.isSame other = true →
      (ofDirectory disk directory).nameOf? path = (ofDirectory disk directory).nameOf? other := by
  refine ⟨fun name accepted => ?_, ?_, ?_, ?_⟩
  · have plain := Path.isPlain_of_isImportName accepted
    exact ⟨Path.nameBelow?_join directory accepted, plain, Path.components_join directory plain⟩
  · intro file source tree parsed statement member
    exact Path.liesBelow_join directory (Syntax.isImportName_of_parse parsed member)
  · intro path name below
    exact Path.isSame_join_of_nameBelow? below
  · intro path other same
    exact Path.nameBelow?_eq_of_isSame directory same

/-- A directory written with dots and repeated slashes, and a path below it written otherwise. -/
theorem names_correspond_dots :
    let disk : Disk := ⟨fun _ => .error .missing⟩
    let directory : Path := ⟨"./p//../i/"⟩
    let source := "import \"dir/a\";"
    let statement : Syntax.Import := ⟨none, "dir/a", ⟨7, 14⟩, ⟨0, 15⟩⟩
    let resolver := ofDirectory disk directory
    (Syntax.Parser.isImportName "dir/a" = true ∧
      directory.join "dir/a" = ⟨"./p//../i/dir/a"⟩ ∧
      resolver.nameOf? (directory.join "dir/a") = some "dir/a" ∧
      (directory.join "dir/a").components =
        directory.components ++ (Text.splitString '/' "dir/a").map .name) ∧
    (∃ tree, Syntax.parse "b" source = .ok tree ∧ statement ∈ tree.imports ∧
      (directory.join "dir/a").LiesBelow directory) ∧
    (resolver.nameOf? ⟨"p/.././i/dir//a"⟩ = some "dir/a" ∧
      Path.IsPlainName "dir/a" ∧ (directory.join "dir/a").isSame ⟨"p/.././i/dir//a"⟩ = true) ∧
    Path.isSame ⟨"p/.././i/dir//a"⟩ ⟨"./p//../i/dir/a"⟩ = true ∧
      resolver.nameOf? ⟨"p/.././i/dir//a"⟩ = resolver.nameOf? ⟨"./p//../i/dir/a"⟩ := by
  intro disk directory source statement resolver
  rcases names_correspond disk directory with ⟨join, imports, below, same⟩
  have accepted : Syntax.Parser.isImportName "dir/a" = true := by decide +kernel
  have named : resolver.nameOf? ⟨"p/.././i/dir//a"⟩ = some "dir/a" := by decide +kernel
  have alike : Path.isSame ⟨"p/.././i/dir//a"⟩ ⟨"./p//../i/dir/a"⟩ = true := by decide +kernel
  rcases join "dir/a" accepted with ⟨name, -, components⟩
  refine ⟨⟨accepted, by decide +kernel, name, components⟩, ?_, ⟨named, below _ _ named⟩, alike,
    same _ _ alike⟩
  have read : Syntax.readSource source =
      (⟨.proto2, none, none, [statement], [], []⟩, []) := by cbv
  have parsed : Syntax.parse "b" source = .ok ⟨.proto2, none, none, [statement], [], []⟩ :=
    Syntax.parse_eq_ok_iff.mpr ⟨by decide, read⟩
  exact ⟨_, parsed, List.mem_singleton_self _,
    imports "b" source _ parsed statement (List.mem_singleton_self _)⟩

end Resolver

end ProtoSchema
