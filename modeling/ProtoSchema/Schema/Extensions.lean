import ProtoSchema.Schema.Basic
/-!
## Visible extensions

The extend blocks that a file sees are its own and those of the files it reaches
by one import of any kind and then any number of public imports. Files contribute
once each: the file itself first, then its public imports, then its others, then
the files behind them, always the nearest first.
-/

namespace ProtoSchema.Schema

/-- The files that have not been visited. -/
def unvisited (schema : Schema) (visited : List FileId) : List FileId :=
  (List.range schema.files.size).filter fun id => !visited.contains id

theorem length_unvisited_cons_lt (schema : Schema) {id : FileId} {visited : List FileId}
    (loaded : id < schema.files.size) (fresh : id ∉ visited) :
    (schema.unvisited (id :: visited)).length < (schema.unvisited visited).length := by
  have sublist : schema.unvisited (id :: visited) =
      (schema.unvisited visited).filter (· != id) := by
    simp only [unvisited, List.filter_filter]
    refine List.filter_congr fun other _ => ?_
    by_cases equal : other = id <;> simp [equal]
  rw [sublist]
  refine List.length_filter_lt_length_iff_exists.2 ⟨id, ?_, by simp⟩
  simp [unvisited, loaded, fresh]

/-- The number of public imports of all files. -/
def reexportCount (schema : Schema) : Nat :=
  (schema.files.toList.flatMap LoadedFile.reexports).length

theorem length_reexports_le (schema : Schema) {id : FileId} {loaded : LoadedFile}
    (present : schema.files[id]? = some loaded) :
    loaded.reexports.length ≤ schema.reexportCount := by
  have member : loaded ∈ schema.files.toList :=
    List.mem_of_getElem? (by rwa [Array.getElem?_toList])
  rcases List.append_of_mem member with ⟨front, back, equal⟩
  rw [reexportCount, equal, List.flatMap_append, List.flatMap_cons, List.length_append,
    List.length_append]
  omega

/-- A bound on the places that a search comes to: those in its queue, and the public
imports of the files that it has not visited. -/
def searchBound (schema : Schema) (visited queue : List FileId) : Nat :=
  queue.length + (schema.unvisited visited).length * schema.reexportCount

theorem searchBound_skip_lt (schema : Schema) (visited : List FileId) (id : FileId)
    (queue : List FileId) :
    schema.searchBound visited queue < schema.searchBound visited (id :: queue) := by
  rw [searchBound, searchBound, List.length_cons]
  omega

theorem searchBound_visit_lt (schema : Schema) {visited : List FileId} {id : FileId}
    {loaded : LoadedFile} (queue : List FileId) (fresh : id ∉ visited)
    (present : schema.files[id]? = some loaded) :
    schema.searchBound (id :: visited) (queue ++ loaded.reexports) <
      schema.searchBound visited (id :: queue) := by
  have imports := schema.length_reexports_le present
  have fewer := schema.length_unvisited_cons_lt (Array.getElem?_eq_some_iff.mp present).1 fresh
  have visits := Nat.mul_le_mul_right schema.reexportCount fewer
  rw [Nat.succ_mul] at visits
  rw [searchBound, searchBound, List.length_append, List.length_cons]
  omega

/-- The files reached from a queue by public imports, in the order of the visits. -/
def reached (schema : Schema) (visited : List FileId) : List FileId → List FileId
  | [] => []
  | id :: queue =>
      if _ : id ∉ visited then
        match _ : schema.files[id]? with
        | none => schema.reached visited queue
        | some loaded => id :: schema.reached (id :: visited) (queue ++ loaded.reexports)
      else schema.reached visited queue
  termination_by queue => schema.searchBound visited queue
  decreasing_by
    · exact schema.searchBound_skip_lt visited id queue
    · exact schema.searchBound_visit_lt queue ‹id ∉ visited› ‹schema.files[id]? = some loaded›
    · exact schema.searchBound_skip_lt visited id queue

/-- The files whose extend blocks a file sees. -/
def extensionSources (schema : Schema) (id : FileId) : List FileId :=
  match schema.files[id]? with
  | none => []
  | some loaded => id :: schema.reached [id] (loaded.reexports ++ loaded.privates)

/-- The extend blocks that a file sees for a message of the given full name. -/
def visibleExtensions (schema : Schema) (id : FileId) (extendee : String) : List ExtensionId :=
  (schema.extensionSources id).flatMap fun source =>
    match schema.files[source]? with
    | none => []
    | some loaded => loaded.localExtensions extendee

end ProtoSchema.Schema
