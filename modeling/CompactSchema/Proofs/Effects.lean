import CompactSchema.Proofs.Caching

set_option autoImplicit false

/-!
# What a resolution changes

Every way in which a resolution ends, with what it leaves behind. When it fails, what is in memory
stays as it is. When it succeeds, one entry in memory changes, and one cache file in a directory
that may have to be made. An entry in memory is therefore the one that was given out last for its
path, whatever happened to the files since.
-/

namespace CompactSchema

namespace Files.Tree

/-- Under other names all is as it was, but for directories that were made or dated anew. -/
def Keeps (only : Names → Prop) (t t' : Tree) : Prop :=
  ∀ q, ¬ only q → t'.node? q = t.node? q ∨
    (t.node? q = none ∨ t.isDirectory q = true) ∧ t'.isDirectory q = true

variable {t t' : Tree} {only : Names → Prop} {p : Names}

theorem Keeps.refl (only : Names → Prop) (t : Tree) : Keeps only t t := by
  intro q hq
  exact .inl rfl

theorem Keeps.trans {t'' : Tree} (h : Keeps only t t') (h' : Keeps only t' t'') :
    Keeps only t t'' := by
  intro q hq
  have hdirectory : ∀ {u v : Tree}, u.node? q = v.node? q → u.isDirectory q = v.isDirectory q := by
    intro u v heq
    rw [isDirectory, isDirectory, heq]
  rcases h q hq with hsame | ⟨hbefore, hmiddle⟩
  · rcases h' q hq with hsame' | ⟨hmiddle, hafter⟩
    · exact .inl (hsame'.trans hsame)
    · rw [hsame, hdirectory hsame] at hmiddle
      exact .inr ⟨hmiddle, hafter⟩
  · rcases h' q hq with hsame' | ⟨-, hafter⟩
    · exact .inr ⟨hbefore, (hdirectory hsame').trans hmiddle⟩
    · exact .inr ⟨hbefore, hafter⟩

theorem keeps_put (node : Node) (h : only p) : Keeps only t (t.put p node) := by
  intro q hq
  apply Or.inl
  apply node?_put_of_ne
  rintro rfl
  exact hq h

theorem keeps_put_directory (m : Instant) (h : t.node? p = none ∨ t.isDirectory p = true) :
    Keeps only t (t.put p (.directory m)) := by
  intro q hq
  by_cases hqp : q = p
  · subst q
    exact .inr ⟨h, isDirectory_of_node? (node?_put_self t p _)⟩
  · exact .inl (node?_put_of_ne t _ hqp)

theorem keeps_tick (t : Tree) : Keeps only t t.tick := by
  intro q hq
  exact .inl rfl

theorem keeps_noteChange (t : Tree) (p : Names) : Keeps only t (t.noteChange p) := by
  unfold noteChange
  split
  · next m hm =>
    apply keeps_put_directory
    exact .inr (isDirectory_of_node? hm)
  · exact .refl only t

theorem keeps_add {node : Node} (h : Keeps only t (t.put p node)) :
    Keeps only t (t.add p node) :=
  (h.trans (keeps_noteChange _ _)).trans (keeps_tick _)

theorem keeps_makeDirs (path : String) (t : Tree) : Keeps only t (t.makeDirs path).2 := by
  apply makeDirs_induction (.refl only) .trans
  intro t p hp
  exact keeps_add (keeps_put_directory t.now (.inl hp))

/-- Where its path leads, a file stands afterwards with what was written. -/
theorem keeps_writeBytes {path : String} {bytes : ByteArray}
    (h : t.writeBytes path bytes = .ok t') :
    ∃ p, t.locate true path = .ok p ∧ Keeps (· = p) t t' ∧ t'.file? p = some (bytes, t.now) := by
  unfold writeBytes at h
  cases hp : t.locate true path with
  | error fault => exact absurd h (by simp [hp, bind, Except.bind])
  | ok p =>
    have hput : Keeps (· = p) t (t.put p (.file bytes t.now)) := keeps_put _ rfl
    simp only [hp, bind, Except.bind] at h
    use p, rfl
    split at h
    · exact absurd h (by simp)
    · obtain rfl := Except.ok.inj h
      exact ⟨hput.trans (keeps_tick _), file?_put_self t p bytes t.now⟩
    · obtain rfl := Except.ok.inj h
      exact ⟨keeps_add hput, file?_add t p bytes t.now⟩

end Files.Tree

namespace Store

open Files Files.Tree

/-- The directory was made as far as it was missing, and the cache file written in it. Under other
    names there are at most new directories, or directories that were dated anew. -/
def Writes (s : Store) (schema : String) (d : Definition) (t t' : Tree) : Prop :=
  ∃ made, t.makeDirs s.directory = (.ok (), made) ∧ Keeps (fun _ => False) t made ∧
    made.writeText (s.cachePath schema) d.serialize = .ok t' ∧
      ∃ p, made.locate true (s.cachePath schema) = .ok p ∧ Keeps (· = p) made t' ∧
        t'.file? p = some (d.serialize.toUTF8, made.now)

/-- The ways in which the loading of a definition ends. -/
inductive Loads (s : Store) (t : Tree) (schema : String) (m : Instant) :
    Except Fault Definition → Tree → Prop
  | cached {d : Definition} : (t.run (readCache (s.cachePath schema) m)).1 = some d →
    Loads s t schema m (.ok d) t
  | unreadable {fault : Files.Fault} : (t.run (readCache (s.cachePath schema) m)).1 = none →
    t.readText schema = .error fault → Loads s t schema m (.error (.inaccessible schema fault)) t
  | malformed {text : String} {fault : SyntaxError} :
    (t.run (readCache (s.cachePath schema) m)).1 = none → t.readText schema = .ok text →
      Definition.ofText text = .error fault →
        Loads s t schema m (.error (.unreadable schema fault)) t
  | unmade {text : String} {d : Definition} {fault : Files.Fault} {made : Tree} :
    (t.run (readCache (s.cachePath schema) m)).1 = none → t.readText schema = .ok text →
      Definition.ofText text = .ok d → t.makeDirs s.directory = (.error fault, made) →
        Loads s t schema m (.error (.inaccessible s.directory fault)) made
  | unwritten {text : String} {d : Definition} {fault : Files.Fault} {made : Tree} :
    (t.run (readCache (s.cachePath schema) m)).1 = none → t.readText schema = .ok text →
      Definition.ofText text = .ok d → t.makeDirs s.directory = (.ok (), made) →
        made.writeText (s.cachePath schema) d.serialize = .error fault →
          Loads s t schema m (.error (.inaccessible (s.cachePath schema) fault)) made
  | compiled {text : String} {d : Definition} {t' : Tree} :
    (t.run (readCache (s.cachePath schema) m)).1 = none → t.readText schema = .ok text →
      Definition.ofText text = .ok d → s.Writes schema d t t' → Loads s t schema m (.ok d) t'

theorem loads_load (s : Store) (t : Tree) (schema : String) (m : Instant) :
    Loads s t schema m (t.run (s.load schema m)).1 (t.run (s.load schema m)).2 := by
  obtain ⟨d?, hcache, -⟩ := run_readCache t (s.cachePath schema) m
  have hread : (t.run (readCache (s.cachePath schema) m)).1 = d? := by rw [hcache]
  rw [run_load, hcache]
  cases d? with
  | some d => exact .cached hread
  | none =>
    dsimp only
    rw [run_compile]
    cases htext : t.readText schema with
    | error fault => exact .unreadable hread htext
    | ok text =>
      dsimp only
      cases hd : Definition.ofText text with
      | error fault => exact .malformed hread htext hd
      | ok d =>
        dsimp only
        rw [run_writeCache]
        have hdirs : Keeps (fun _ => False) t (t.makeDirs s.directory).2 := keeps_makeDirs _ t
        cases hmade : t.makeDirs s.directory with
        | mk result made =>
          rw [hmade] at hdirs
          cases result with
          | error fault => exact .unmade hread htext hd hmade
          | ok =>
            dsimp only
            cases hwrite : made.writeText (s.cachePath schema) d.serialize with
            | error fault => exact .unwritten hread htext hd hmade hwrite
            | ok t' =>
              have hwrites : s.Writes schema d t t' :=
                ⟨made, hmade, hdirs, hwrite, keeps_writeBytes hwrite⟩
              exact .compiled hread htext hd hwrites

namespace World

/-- The path leads to a notation file that was modified at `m`. -/
structure Finds (w : World) (path schema : String) (m : Instant) : Prop where
  canonical : w.tree.canonical path = .ok schema
  modified : w.tree.modified schema = .ok m

/-- The ways in which a resolution ends. -/
inductive Ends (w : World) (path : String) : Except Fault Entry → World → Prop
  | missing {fault : Files.Fault} : w.tree.canonical path = .error fault →
    Ends w path (.error (.inaccessible path fault)) w
  | undated {schema : String} {fault : Files.Fault} : w.tree.canonical path = .ok schema →
    w.tree.modified schema = .error fault → Ends w path (.error (.inaccessible schema fault)) w
  | remembered {schema : String} {m : Instant} {entry : Entry} : w.Finds path schema m →
    w.store.current? schema m = some entry → Ends w path (.ok entry) w
  | failed {schema : String} {m : Instant} {fault : Fault} {tree : Tree} : w.Finds path schema m →
    w.store.current? schema m = none → Loads w.store w.tree schema m (.error fault) tree →
      Ends w path (.error fault) ⟨tree, w.store⟩
  | loaded {schema : String} {m : Instant} {d : Definition} {tree : Tree} : w.Finds path schema m →
    w.store.current? schema m = none → Loads w.store w.tree schema m (.ok d) tree →
      Ends w path (.ok (w.store.remember schema m d).1) ⟨tree, (w.store.remember schema m d).2⟩

theorem ends_resolve (w : World) (path : String) :
    Ends w path (w.resolve path).1 (w.resolve path).2 := by
  unfold World.resolve
  rw [run_resolve]
  cases hpath : w.tree.canonical path with
  | error fault => exact .missing hpath
  | ok schema =>
    dsimp only
    cases hm : w.tree.modified schema with
    | error fault => exact .undated hpath hm
    | ok m =>
      dsimp only
      cases hmemory : w.store.current? schema m with
      | some entry => exact .remembered ⟨hpath, hm⟩ hmemory
      | none =>
        have hload := loads_load w.store w.tree schema m
        dsimp only
        generalize w.tree.run (w.store.load schema m) = outcome at hload
        obtain ⟨result, tree⟩ := outcome
        cases result with
        | error fault => exact .failed ⟨hpath, hm⟩ hmemory hload
        | ok d => exact .loaded ⟨hpath, hm⟩ hmemory hload

/-- The notation file at a path is missing, cannot be read, or does not hold a definition. -/
inductive Unusable (t : Tree) (path : String) : Prop
  | missing {fault : Files.Fault} : t.canonical path = .error fault → Unusable t path
  | undated {schema : String} {fault : Files.Fault} : t.canonical path = .ok schema →
    t.modified schema = .error fault → Unusable t path
  | unreadable {schema : String} {fault : Files.Fault} : t.canonical path = .ok schema →
    t.readText schema = .error fault → Unusable t path
  | malformed {schema text : String} {fault : SyntaxError} : t.canonical path = .ok schema →
    t.readText schema = .ok text → Definition.ofText text = .error fault → Unusable t path

/-- What a resolution leaves behind that gives `entry` for a notation file. -/
structure Settles (w w' : World) (schema : String) (entry : Entry) : Prop where
  kept : w'.store.entry? schema = some entry
  others : ∀ other, other ≠ schema → w'.store.entry? other = w.store.entry? other
  directory : w'.store.directory = w.store.directory
  options : w'.store.options = w.store.options
  files : w'.tree = w.tree ∨ w.store.Writes schema entry.definition w.tree w'.tree
  /-- Nothing at all changes where the definition is in memory, -/
  memory : ∀ current, w.store.current? schema entry.modified = some current →
    current = entry ∧ w' = w
  /-- and no file where it is in the cache file. -/
  cache : ∀ d, (w.tree.run (readCache (w.store.cachePath schema) entry.modified)).1 = some d →
    w'.tree = w.tree

variable {w w' w₀ : World} {path schema : String} {m : Instant} {entry : Entry}

theorem current?_eq_some :
    w.store.current? schema m = some entry ↔
      w.store.entry? schema = some entry ∧ entry.modified = m := by
  rw [current?, Option.filter_eq_some_iff, decide_eq_true_eq]

theorem Finds.not_unusable {text : String} {d : Definition} (h : w.Finds path schema m)
    (htext : w.tree.readText schema = .ok text) (hd : Definition.ofText text = .ok d) :
    ¬ Unusable w.tree path := by
  have hschema : ∀ {other : String}, w.tree.canonical path = .ok other → other = schema :=
    fun hother => Except.ok.inj (hother.symm.trans h.canonical)
  intro hunusable
  cases hunusable with
  | missing hpath => exact absurd (h.canonical.symm.trans hpath) (by simp)
  | undated hpath hm =>
    rw [hschema hpath] at hm
    exact absurd (h.modified.symm.trans hm) (by simp)
  | unreadable hpath hread =>
    rw [hschema hpath] at hread
    exact absurd (htext.symm.trans hread) (by simp)
  | malformed hpath hread hfault =>
    rw [hschema hpath] at hread
    obtain rfl := Except.ok.inj (htext.symm.trans hread)
    exact absurd (hd.symm.trans hfault) (by simp)

/-- A resolution that fails leaves the memory alone, and the files if it is for the notation file
    that it fails. -/
theorem Ends.of_error {fault : Fault} (h : Ends w path (.error fault) w') :
    w'.store = w.store ∧ (Unusable w.tree path → w'.tree = w.tree) := by
  cases h with
  | missing hpath => exact ⟨rfl, fun _ => rfl⟩
  | undated hpath hm => exact ⟨rfl, fun _ => rfl⟩
  | failed hfinds hmemory hload =>
    constructor
    · rfl
    · intro hunusable
      cases hload with
      | unreadable hmiss hread => rfl
      | malformed hmiss hread hfault => rfl
      | unmade hmiss hread hd hmade =>
        exact absurd hunusable (hfinds.not_unusable hread hd)
      | unwritten hmiss hread hd hmade hwrite =>
        exact absurd hunusable (hfinds.not_unusable hread hd)

theorem Ends.of_ok (h : Ends w path (.ok entry) w') :
    ∃ schema, w.Finds path schema entry.modified ∧ Settles w w' schema entry := by
  cases h with
  | @remembered schema m entry hfinds hmemory =>
    obtain ⟨hentry, rfl⟩ := current?_eq_some.mp hmemory
    refine ⟨schema, hfinds, hentry, fun _ _ => rfl, rfl, rfl, .inl rfl, ?_, fun _ _ => rfl⟩
    intro current hcurrent
    exact ⟨Option.some.inj (hcurrent.symm.trans hmemory), rfl⟩
  | @loaded schema m d tree hfinds hmemory hload =>
    refine ⟨schema, hfinds, entry?_remember_self _ _ _ _, ?_, rfl, rfl, ?_, ?_, ?_⟩
    · intro other hother
      exact entry?_remember_of_ne _ _ _ hother
    · cases hload with
      | cached hhit => exact .inl rfl
      | compiled hmiss hread hd hwrites => exact .inr hwrites
    · intro current hcurrent
      exact absurd (hmemory.symm.trans hcurrent) (by simp)
    · intro other hother
      cases hload with
      | cached hhit => rfl
      | compiled hmiss hread hd hwrites => exact absurd (hmiss.symm.trans hother) (by simp)

/-! ## Sessions -/

/-- What the resolution of a path gives, under the canonical path. -/
def served (w : World) (path : String) : List (String × Entry) :=
  match w.tree.canonical path, (w.resolve path).1 with
  | .ok schema, .ok entry => [(schema, entry)]
  | _, _ => []

/-- What happens while one store is in use, with all that it gave out, the last one first. Between
    two uses of the store anything may happen to the files. -/
inductive Session (w₀ : World) : List (String × Entry) → World → Prop
  | start : Session w₀ [] w₀
  | outside {history : List (String × Entry)} {w : World} (tree : Tree) :
    Session w₀ history w → Session w₀ history ⟨tree, w.store⟩
  | resolve {history : List (String × Entry)} {w : World} (path : String) :
    Session w₀ history w → Session w₀ (w.served path ++ history) (w.resolve path).2
  | check {history : List (String × Entry)} {w : World} (path : String) (document : Json) :
    Session w₀ history w → Session w₀ (w.served path ++ history) (w.check path document).2

theorem served_of_error {fault : Fault} (h : (w.resolve path).1 = .error fault) :
    w.served path = [] := by
  unfold served
  rw [h]
  cases w.tree.canonical path <;> rfl

theorem served_of_ok (hpath : w.tree.canonical path = .ok schema)
    (h : (w.resolve path).1 = .ok entry) : w.served path = [(schema, entry)] := by
  unfold served
  rw [hpath, h]

/-- The memory after a resolution is the one before with what was given out. -/
theorem entry?_resolve (w : World) (path other : String) :
    (w.resolve path).2.store.entry? other =
      ((w.served path).lookup other).or (w.store.entry? other) := by
  have hends := ends_resolve w path
  cases hresult : (w.resolve path).1 with
  | error fault =>
    rw [hresult] at hends
    rw [served_of_error hresult, hends.of_error.1]
    rfl
  | ok entry =>
    rw [hresult] at hends
    obtain ⟨schema, hfinds, hsettles⟩ := hends.of_ok
    rw [served_of_ok hfinds.canonical hresult]
    by_cases hother : other = schema
    · subst other
      rw [hsettles.kept, List.lookup_cons_self]
      rfl
    · have hne : (other == schema) = false := by simpa using hother
      rw [hsettles.others other hother, List.lookup_cons, hne]
      rfl

theorem Session.entry?_eq {history : List (String × Entry)} (h : Session w₀ history w)
    (schema : String) :
    w.store.entry? schema = (history.lookup schema).or (w₀.store.entry? schema) := by
  induction h with
  | start => rfl
  | outside tree _ ih => exact ih
  | resolve path _ ih => rw [entry?_resolve, ih, List.lookup_append, Option.or_assoc]
  | check path document _ ih =>
    rw [check_snd, entry?_resolve, ih, List.lookup_append, Option.or_assoc]

theorem resolve_of_current (hfinds : w.Finds path schema m)
    (h : w.store.current? schema m = some entry) : w.resolve path = (.ok entry, w) := by
  unfold World.resolve
  simp only [run_resolve, hfinds.canonical, hfinds.modified, h]

/-- A resolution that fails leaves the memory as it was, and the files too if it is for the notation
    file that it fails. One that succeeds changes its own entry and its cache file, and nothing that
    it finds in a copy. So what a store gave out last for a notation file it gives out again as long
    as the file is of the same instant. -/
theorem resolve_frame (w : World) (path : String) :
    (∀ fault, (w.resolve path).1 = .error fault →
        (w.resolve path).2.store = w.store ∧
          (Unusable w.tree path → (w.resolve path).2.tree = w.tree)) ∧
      (∀ entry, (w.resolve path).1 = .ok entry → ∃ schema,
        w.Finds path schema entry.modified ∧ Settles w (w.resolve path).2 schema entry) ∧
      ∀ w₀ history, Session w₀ history w → ∀ schema entry, history.lookup schema = some entry →
        w.Finds path schema entry.modified → w.resolve path = (.ok entry, w) := by
  have hends := ends_resolve w path
  refine ⟨?_, ?_, ?_⟩
  · intro fault hfault
    rw [hfault] at hends
    exact hends.of_error
  · intro entry hentry
    rw [hentry] at hends
    exact hends.of_ok
  · intro w₀ history hsession schema entry hlast hfinds
    apply resolve_of_current hfinds
    rw [current?_eq_some, hsession.entry?_eq, hlast]
    exact ⟨rfl, rfl⟩

end World

/-- The definition is given out again although the cache file is gone. -/
theorem World.resolve_frame_spoiled :
    let entry : Entry := ⟨1, .primitive .int, 0⟩
    let w : World := ⟨Sample.tree, (Sample.world.store.remember "/s" 1 entry.definition).2⟩
    World.Session Sample.world [("/s", entry)] w ∧ w.Finds "/s" "/s" entry.modified ∧
      w.resolve "/s" = (.ok entry, w) := by
  intro entry w
  have hcanonical : Sample.tree.canonical "/s" = .ok "/s" := Sample.canonical_schema _ rfl
  have hfinds : w.Finds "/s" "/s" entry.modified :=
    ⟨hcanonical, modified_of_find (Sample.find_schema Sample.tree rfl)⟩
  have hsession : World.Session Sample.world [("/s", entry)] w := by
    have hstart : World.Session Sample.world [] Sample.world := .start
    have hresolve := hstart.resolve "/s"
    rw [World.served_of_ok hcanonical (congrArg Prod.fst Sample.resolve_world_eq),
      Sample.resolve_world] at hresolve
    exact .outside Sample.tree hresolve
  have hframe := World.resolve_frame w "/s"
  exact ⟨hsession, hfinds, hframe.2.2 _ _ hsession "/s" entry rfl hfinds⟩

end Store

end CompactSchema
