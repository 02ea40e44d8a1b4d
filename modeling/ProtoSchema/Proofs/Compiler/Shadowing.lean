import ProtoSchema.Proofs.Compiler.Opening
import ProtoSchema.Proofs.Paths
/-! # The file that was asked for

The path of a file is turned into a name by the first include directory that it lies below, and
the file of this name is taken from the first include directory that has one. If these are not
the same file, opening it fails. A file that was loaded before has been found in the same way.
-/

namespace ProtoSchema

/-! ## Names of paths -/

namespace Path

/-- A path has the components of a directory and then some plain names. -/
def Continues (path directory : Path) (parts : List String) : Prop :=
  parts ≠ [] ∧ path.weighty = directory.weighty ++ parts.map .name

/-- The name of a path in the first of some directories that it lies below. -/
inductive NamedIn (path : Path) : List Path → String → Prop
  | here {directory : Path} {directories : List Path} {parts : List String}
      (continues : path.Continues directory parts) :
      NamedIn path (directory :: directories) ("/".intercalate parts)
  | later {directory : Path} {directories : List Path} {name : String}
      (outside : ∀ parts, ¬path.Continues directory parts)
      (rest : NamedIn path directories name) : NamedIn path (directory :: directories) name

theorem nameBelow?_eq_none_iff {directory path : Path} :
    directory.nameBelow? path = none ↔ ∀ parts, ¬path.Continues directory parts := by
  rw [Option.eq_none_iff_forall_ne_some]
  constructor
  · rintro none parts ⟨filled, components⟩
    exact none _ (nameBelow?_eq_some_iff.mpr ⟨parts, filled, components, rfl⟩)
  · intro outside name below
    rcases nameBelow?_eq_some_iff.mp below with ⟨parts, filled, components, -⟩
    exact outside parts ⟨filled, components⟩

theorem exists_namedIn {path : Path} {directories : List Path}
    (below : ∃ directory ∈ directories, ∃ parts, path.Continues directory parts) :
    ∃ name, path.NamedIn directories name := by
  induction directories with
  | nil => simp at below
  | cons directory directories induction =>
      by_cases first : ∃ parts, path.Continues directory parts
      · rcases first with ⟨parts, continues⟩
        exact ⟨_, .here continues⟩
      · rcases below with ⟨other, member, continues⟩
        rcases List.mem_cons.mp member with rfl | member
        · exact absurd continues first
        · rcases induction ⟨other, member, continues⟩ with ⟨name, named⟩
          exact ⟨name, .later (not_exists.mp first) named⟩

end Path

/-! ## Files of a name -/

/-- The file of a name in the first of some directories that has one, and its path. -/
inductive Disk.Finds (disk : Disk) (name : String) : List Path → Path → SourceFile → Prop
  | here {directory : Path} {directories : List Path} {file : SourceFile}
      (read : SourceFile.read disk name (directory.join name) = .ok file) :
      Finds disk name (directory :: directories) (directory.join name) file
  | later {directory : Path} {directories : List Path} {place : Path} {file : SourceFile}
      (missing : disk.read (directory.join name) = .error .missing)
      (rest : Finds disk name directories place file) :
      Finds disk name (directory :: directories) place file

namespace Resolver

variable {disk : Disk} {directories : List Path} {name : String}

theorem nameOf?_eq_some_iff {path : Path} :
    (ofDirectories disk directories).nameOf? path = some name ↔ path.NamedIn directories name := by
  change (directories.map (ofDirectory disk)).findSome? (·.nameOf? path) = some name ↔ _
  induction directories with
  | nil =>
      constructor
      · intro found
        cases found
      · intro named
        cases named
  | cons directory directories induction =>
      have own : (ofDirectory disk directory).nameOf? path = directory.nameBelow? path := rfl
      rw [List.map_cons, List.findSome?_cons, own]
      cases below : directory.nameBelow? path with
      | some found =>
          rcases Path.nameBelow?_eq_some_iff.mp below with ⟨parts, filled, components, rfl⟩
          constructor
          · rintro ⟨⟩
            exact .here ⟨filled, components⟩
          · intro named
            cases named with
            | here continues =>
                have other := Path.nameBelow?_eq_some_iff.mpr
                  ⟨_, continues.1, continues.2, rfl⟩
                exact below.symm.trans other
            | later outside _ => exact absurd ⟨filled, components⟩ (outside parts)
      | none =>
          have outside := Path.nameBelow?_eq_none_iff.mp below
          refine induction.trans ⟨.later outside, fun named => ?_⟩
          cases named with
          | here continues => exact absurd continues (outside _)
          | later _ rest => exact rest

/-- What is opened under a name is the file of the first directory that has one. -/
theorem openFile_eq_ok_iff {file : SourceFile} :
    (ofDirectories disk directories).openFile name = .ok file ↔
      ∃ place, disk.Finds name directories place file := by
  change openFirst name (directories.map (ofDirectory disk)) = .ok file ↔ _
  induction directories with
  | nil =>
      constructor
      · intro opens
        cases opens
      · rintro ⟨place, finds⟩
        cases finds
  | cons directory directories induction =>
      have own : (ofDirectory disk directory).openFile name =
          SourceFile.read disk name (directory.join name) := rfl
      rw [List.map_cons, openFirst, own]
      cases read : SourceFile.read disk name (directory.join name) with
      | ok found =>
          constructor
          · rintro ⟨⟩
            exact ⟨_, .here read⟩
          · rintro ⟨place, finds⟩
            cases finds with
            | here other => exact read.symm.trans other
            | later missing _ =>
                rw [SourceFile.read, missing] at read
                cases read
      | error error =>
          have notFound := SourceFile.isFileNotFound_of_read read
          dsimp only
          split
          · next absent =>
              refine induction.trans ?_
              constructor
              · rintro ⟨place, finds⟩
                exact ⟨place, .later (notFound.mp absent) finds⟩
              · rintro ⟨place, finds⟩
                cases finds with
                | here other =>
                    rw [read] at other
                    cases other
                | later _ rest => exact ⟨place, rest⟩
          · next present =>
              constructor
              · intro opens
                cases opens
              · rintro ⟨place, finds⟩
                cases finds with
                | here other =>
                    rw [read] at other
                    cases other
                | later missing _ => exact absurd (notFound.mpr missing) present

end Resolver

theorem Disk.Finds.path_eq {disk : Disk} {name : String} {directories : List Path} {place : Path}
    {file : SourceFile} (finds : disk.Finds name directories place file) :
    file.path = some place := by
  induction finds with
  | here read => exact SourceFile.path_of_read read
  | later _ _ induction => exact induction

/-! ## Loaded files -/

/-- A file is what a resolver opens under some name. -/
def SourceFile.FoundBy (resolver : Resolver) (file : SourceFile) : Prop :=
  ∃ asked, resolver.openFile asked = .ok file

/-- A file that is loaded has the path of the file that the resolver opens under its name. -/
theorem Schema.Settled.exists_opened {resolver : Resolver} {schema : Schema}
    (settled : schema.Settled (SourceFile.FoundBy resolver)) (names : resolver.NamesFiles)
    {id : FileId} {loaded : LoadedFile} (present : schema.files[id]? = some loaded) :
    ∃ file, resolver.openFile loaded.file.name = .ok file ∧ loaded.path = file.path := by
  rcases settled.files present with ⟨file, ⟨asked, opened⟩, own⟩
  refine ⟨file, ?_, own.path_eq⟩
  rw [own.name_eq, names asked file opened]
  exact opened

theorem Schema.Settled.mono {Opened Other : SourceFile → Prop} {schema : Schema}
    (settled : schema.Settled Opened) (weaker : ∀ file, Opened file → Other file) :
    schema.Settled Other where
  indexed := settled.indexed
  files present := by
    rcases settled.files present with ⟨file, opened, own⟩
    exact ⟨file, weaker file opened, own⟩

theorem checkShadow_some (name : String) (place path : Path) :
    checkShadow name (some place) path =
      if place.weighty = path.weighty then .ok () else .error (.shadowed name path place) := by
  simp only [checkShadow, Path.isSame, decide_eq_true_eq]

namespace Compiler

/-- A compiler has only ever searched certain include directories of a disk. -/
structure Searches (compiler : Compiler) (disk : Disk) (directories : List Path)
    (opened : List String) : Prop where
  resolver_eq : compiler.resolver = .ofDirectories disk directories
  wellFormed : compiler.schema.WellFormed opened
  settled : compiler.schema.Settled (SourceFile.FoundBy compiler.resolver)

/-- Opening the file at a path that has a name in the include directories: if it succeeds, the file
of this name is loaded, and its path has the components of the one that was asked for; if the file
of this name has another path, it fails and changes nothing. -/
structure OpensRequested (compiler : Compiler) (disk : Disk) (directories : List Path)
    (path : Path) (name : String) : Prop where
  succeeded : (compiler.openFile path).1 = .ok () →
    ∃ (id : FileId) (loaded : LoadedFile) (place : Path),
      (compiler.openFile path).2.schema.fileNamed? name = some id ∧
        (compiler.openFile path).2.schema.files[id]? = some loaded ∧
        loaded.file.name = name ∧ loaded.path = some place ∧ place.weighty = path.weighty
  shadowed : ∀ place file, disk.Finds name directories place file →
    place.weighty ≠ path.weighty →
      compiler.openFile path = (.error (.shadowed name path place), compiler)

namespace Searches

variable {compiler : Compiler} {disk : Disk} {directories : List Path} {opened : List String}
  {path place : Path} {name : String} {file : SourceFile}

theorem namesFiles (searches : compiler.Searches disk directories opened) :
    compiler.resolver.NamesFiles := by
  rw [searches.resolver_eq]
  exact Resolver.namesFiles_ofDirectories disk directories

theorem target?_eq (searches : compiler.Searches disk directories opened)
    (named : path.NamedIn directories name) : compiler.target? path = some (name, true) := by
  rw [target?, searches.resolver_eq, Resolver.nameOf?_eq_some_iff.mpr named]

theorem openFile_eq_ok_iff (searches : compiler.Searches disk directories opened) :
    compiler.resolver.openFile name = .ok file ↔
      ∃ place, disk.Finds name directories place file := by
  rw [searches.resolver_eq]
  exact Resolver.openFile_eq_ok_iff

/-- The path of the file that the include directories have is compared before anything else is
done, also if the file was loaded before. -/
theorem shadowed (searches : compiler.Searches disk directories opened)
    (named : path.NamedIn directories name) (finds : disk.Finds name directories place file)
    (other : place.weighty ≠ path.weighty) :
    compiler.openFile path = (.error (.shadowed name path place), compiler) := by
  have opens := searches.openFile_eq_ok_iff.mpr ⟨place, finds⟩
  have refused : checkShadow name (some place) path = .error (.shadowed name path place) := by
    rw [checkShadow_some, if_neg other]
  rw [openFile, searches.target?_eq named]
  dsimp only
  cases known : compiler.schema.fileNamed? name with
  | none =>
      dsimp only
      rw [openNew, opens]
      dsimp only
      rw [if_pos rfl, finds.path_eq, refused]
  | some id =>
      rcases searches.wellFormed.fileNamed?_eq_some_iff.mp known with ⟨loaded, present, rfl⟩
      rcases searches.settled.exists_opened searches.namesFiles present with
        ⟨original, opensOriginal, samePath⟩
      cases opens.symm.trans opensOriginal
      have found : compiler.schema.files[id]?.bind LoadedFile.path = some place := by
        rw [present, Option.bind_some, samePath, finds.path_eq]
      dsimp only
      rw [reopen, if_pos rfl, found, refused]

theorem openFile (searches : compiler.Searches disk directories opened) (path : Path) :
    ∃ later, (compiler.openFile path).2.Searches disk directories later := by
  have resolver : (compiler.openFile path).2.resolver = compiler.resolver := by
    have kept := congrArg Compiler.resolver (compiler.openFile_eq path)
    exact kept
  refine ⟨_, resolver.trans searches.resolver_eq,
    Schema.WellFormed.openFile ⟨compiler, opened⟩ path searches.namesFiles searches.wellFormed, ?_⟩
  rw [resolver]
  exact searches.settled.openFile (fun asked _ opens => ⟨asked, opens⟩) path

theorem opensRequested (searches : compiler.Searches disk directories opened)
    (named : path.NamedIn directories name) :
    compiler.OpensRequested disk directories path name where
  succeeded success := by
    have target := searches.target?_eq named
    have settled : compiler.schema.Settled fun _ => True := searches.settled.mono fun _ _ => trivial
    have exactly := opensExactly_openFile searches.namesFiles searches.wellFormed settled path
    rcases exactly.succeeded success with
      ⟨asked, included, order, same, -, -, -, -, -, -, id, loaded, present, called, -⟩
    cases target.symm.trans same
    rcases searches.openFile path with ⟨later, after⟩
    rcases after.settled.exists_opened after.namesFiles present with ⟨file, opens, samePath⟩
    rw [called, after.openFile_eq_ok_iff] at opens
    rcases opens with ⟨place, finds⟩
    refine ⟨id, loaded, place, ?_, present, called, ?_, ?_⟩
    · exact after.wellFormed.fileNamed?_eq_some_iff.mpr ⟨loaded, present, called⟩
    · rw [samePath, finds.path_eq]
    · by_contra other
      rw [searches.shadowed named finds other] at success
      cases success
  shadowed _ _ finds other := searches.shadowed named finds other

end Searches

end Compiler

namespace Session

/-- A session that keeps to its include directories. -/
theorem searches_run {disk : Disk} {directories : List Path} {operations : List Operation}
    (fixed : ∀ operation ∈ operations,
      operation.Respects (· = .ofDirectories disk directories)) :
    (run (.ofDirectories disk directories) operations).compiler.Searches disk directories
      (run (.ofDirectories disk directories) operations).opened := by
  have resolver := @allowed_resolver_run (· = .ofDirectories disk directories) _ rfl _ fixed
  refine ⟨resolver, ?_, ?_⟩
  · refine @Schema.WellFormed.run (· = .ofDirectories disk directories) ?_ _ rfl _ fixed
    rintro _ rfl
    exact Resolver.namesFiles_ofDirectories disk directories
  · rw [resolver]
    refine @run_induction (· = .ofDirectories disk directories)
      (fun schema _ => schema.Settled (SourceFile.FoundBy (.ofDirectories disk directories)))
      .empty ?_ _ rfl operations fixed
    intro session path same settled
    refine settled.openFile (fun asked file opens => ⟨asked, ?_⟩) path
    rw [← same]
    exact opens

/-- After every session with fixed include directories and files, opening a path below one of the
directories opens the file at this path, or fails if the directories have another file of its
name. -/
theorem opensRequested_run (disk : Disk) (directories : List Path) (operations : List Operation)
    (fixed : ∀ operation ∈ operations,
      operation.Respects (· = .ofDirectories disk directories)) (path : Path)
    (below : ∃ directory ∈ directories, ∃ parts, path.Continues directory parts) :
    ∃ name, path.NamedIn directories name ∧
      (run (.ofDirectories disk directories) operations).compiler.OpensRequested disk directories
        path name := by
  rcases Path.exists_namedIn below with ⟨name, named⟩
  exact ⟨name, named, (searches_run fixed).opensRequested named⟩

/-- A file that an import has loaded from the first directory is asked for in the second one. -/
theorem opensRequested_run_imported :
    let first : Node := .directory [("a", .file [])]
    let second : Node := .directory [("a", .file []), ("b", .file "import \"a\";".toUTF8.toList)]
    let disk := Node.disk (.directory [("first", first), ("second", second)]) []
    let directories : List Path := [⟨"./first"⟩, ⟨"second/"⟩]
    let operations : List Operation := [.openFile ⟨"second/b"⟩, .strictNames true]
    let path : Path := ⟨"./second/a"⟩
    let compiler := (run (.ofDirectories disk directories) operations).compiler
    (∀ operation ∈ operations, operation.Respects (· = .ofDirectories disk directories)) ∧
      (∃ directory ∈ directories, ∃ parts, path.Continues directory parts) ∧
      (∃ name, path.NamedIn directories name ∧
        compiler.OpensRequested disk directories path name) ∧
      compiler.openFile path = (.error (.shadowed "a" path ⟨"./first/a"⟩), compiler) := by
  intro first second disk directories operations path compiler
  have fixed : ∀ operation ∈ operations,
      operation.Respects (· = .ofDirectories disk directories) := by
    simp only [operations, List.forall_mem_cons, Operation.Respects]
    simp
  have below : ∃ directory ∈ directories, ∃ parts, path.Continues directory parts :=
    ⟨⟨"second/"⟩, List.mem_cons_of_mem _ List.mem_cons_self, ["a"], List.cons_ne_nil _ _,
      by decide +kernel⟩
  have opens := opensRequested_run disk directories operations fixed path below
  refine ⟨fixed, below, opens, ?_⟩
  rcases opens with ⟨name, named, requested⟩
  have computed : (Resolver.ofDirectories disk directories).nameOf? path = some "a" := by
    decide +kernel
  cases (Resolver.nameOf?_eq_some_iff.mpr named).symm.trans computed
  have readable : (SourceFile.read disk "a" ⟨"./first/a"⟩).toBool = true := by decide +kernel
  cases read : SourceFile.read disk "a" ⟨"./first/a"⟩ with
  | error error =>
      rw [read] at readable
      cases readable
  | ok file =>
      have place : Path.join ⟨"./first"⟩ "a" = ⟨"./first/a"⟩ := by decide +kernel
      have finds : disk.Finds "a" directories ⟨"./first/a"⟩ file := by
        rw [← place] at read ⊢
        exact .here read
      exact requested.shadowed _ file finds (by decide +kernel)

end Session

end ProtoSchema
