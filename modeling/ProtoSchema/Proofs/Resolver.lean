import ProtoSchema.Resolver
/-! # Opened files

What a file is that was read, and why reading fails. A resolver should give every file the
name that it was asked for. All resolvers that can be made here do.
-/

namespace ProtoSchema

namespace SourceFile

/-! ## Reading a text -/

section

variable {name source : String} {path : Option Path} {file : SourceFile} {error : LoadError}

theorem name_of_ofSource (parsed : ofSource name source path = .ok file) : file.name = name := by
  rw [ofSource] at parsed
  split at parsed
  · cases parsed
    rfl
  · cases parsed

theorem path_of_ofSource (parsed : ofSource name source path = .ok file) : file.path = path := by
  rw [ofSource] at parsed
  split at parsed
  · cases parsed
    rfl
  · cases parsed

/-- A text makes no file only because of its syntax. -/
theorem exists_of_ofSource_eq_error (failed : ofSource name source path = .error error) :
    ∃ failure, error = .parse failure := by
  rw [ofSource] at failed
  split at failed
  · cases failed
  · next failure _ =>
      cases failed
      exact ⟨failure, rfl⟩

end

/-! ## Reading a file of a disk -/

section

variable {disk : Disk} {name : String} {path : Path} {file : SourceFile} {error : LoadError}

/-- A file of a disk is made of the text at its path, which is not too large. -/
theorem exists_of_read (found : read disk name path = .ok file) :
    ∃ bytes characters, disk.read path = .ok bytes ∧ bytes.length ≤ Syntax.maxFileSize ∧
      Utf8.decode? bytes = some characters ∧
      ofSource name (String.ofList characters) (some path) = .ok file := by
  rw [read] at found
  split at found
  · cases found
  · cases found
  · next bytes present =>
      split at found
      · cases found
      · next fits =>
          split at found
          · cases found
          · next characters decoded =>
              exact ⟨bytes, characters, present, Nat.le_of_not_lt fits, decoded, found⟩

theorem name_of_read (found : read disk name path = .ok file) : file.name = name := by
  rcases exists_of_read found with ⟨_, _, -, -, -, parsed⟩
  exact name_of_ofSource parsed

theorem path_of_read (found : read disk name path = .ok file) : file.path = some path := by
  rcases exists_of_read found with ⟨_, _, -, -, -, parsed⟩
  exact path_of_ofSource parsed

/-- Why there is no file: the disk has none or cannot read it, or its content is too large, not
UTF-8 or faulty. -/
theorem cases_of_read_eq_error (failed : read disk name path = .error error) :
    (disk.read path = .error .missing ∧ error = .fileNotFound name) ∨
      (disk.read path = .error .unreadable ∧ error = .openFile name path) ∨
      ∃ bytes, disk.read path = .ok bytes ∧
        (error = .fileTooLarge name ∨ error = .invalidUtf8 name ∨
          ∃ failure, error = .parse failure) := by
  rw [read] at failed
  split at failed
  · next missing =>
      cases failed
      exact .inl ⟨missing, rfl⟩
  · next unreadable =>
      cases failed
      exact .inr (.inl ⟨unreadable, rfl⟩)
  · next bytes present =>
      refine .inr (.inr ⟨bytes, present, ?_⟩)
      split at failed
      · cases failed
        exact .inl rfl
      · split at failed
        · cases failed
          exact .inr (.inl rfl)
        · exact .inr (.inr (exists_of_ofSource_eq_error failed))

/-- A file is not found only if the disk has none. -/
theorem isFileNotFound_of_read (failed : read disk name path = .error error) :
    error.isFileNotFound = true ↔ disk.read path = .error .missing := by
  rcases cases_of_read_eq_error failed with
    ⟨missing, rfl⟩ | ⟨unreadable, rfl⟩ | ⟨bytes, present, rfl | rfl | ⟨failure, rfl⟩⟩
  · exact iff_of_true rfl missing
  · rw [unreadable]
    exact iff_of_false Bool.false_ne_true nofun
  all_goals
    rw [present]
    exact iff_of_false Bool.false_ne_true nofun

end

end SourceFile

namespace Resolver

/-- The resolver gives every file the name that it was asked for. -/
def NamesFiles (resolver : Resolver) : Prop :=
  ∀ name file, resolver.openFile name = .ok file → file.name = name

theorem namesFiles_ofDirectory (disk : Disk) (directory : Path) :
    (ofDirectory disk directory).NamesFiles := by
  intro name file found
  exact SourceFile.name_of_read found

theorem namesFiles_ofMemory (memory : Memory) : (ofMemory memory).NamesFiles := by
  intro name file found
  simp only [ofMemory] at found
  split at found
  · cases found
  · exact SourceFile.name_of_ofSource found
  · cases found

theorem namesFiles_chain {resolvers : List Resolver}
    (each : ∀ resolver ∈ resolvers, resolver.NamesFiles) : (chain resolvers).NamesFiles := by
  intro name file found
  change openFirst name resolvers = .ok file at found
  induction resolvers with
  | nil => cases found
  | cons resolver resolvers induction =>
      rw [openFirst] at found
      split at found
      · next opened =>
          cases found
          exact each resolver List.mem_cons_self name file opened
      · split at found
        · exact induction
            (fun other member => each other (List.mem_cons_of_mem resolver member)) found
        · cases found

theorem namesFiles_ofDirectories (disk : Disk) (directories : List Path) :
    (ofDirectories disk directories).NamesFiles := by
  apply namesFiles_chain
  intro resolver member
  rcases List.mem_map.mp member with ⟨directory, -, rfl⟩
  exact namesFiles_ofDirectory disk directory

end Resolver

end ProtoSchema
