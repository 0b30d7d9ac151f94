import CompactSchema.Proofs.Paths

set_option autoImplicit false

/-!
# What changes leave as it is

A node that is put is found under its names, and under all others what was found before. A change to
a tree leaves every link in place, and all files but those that it is about.
-/

namespace CompactSchema.Files.Tree

/-- Leaving out entries with other names does not change what is found. -/
theorem lookup_filter {κ α : Type} [BEq κ] [LawfulBEq κ] (keep : κ → Bool) {q : κ}
    (h : keep q = true) (nodes : List (κ × α)) :
    (nodes.filter fun entry => keep entry.1).lookup q = nodes.lookup q := by
  induction nodes with
  | nil => rfl
  | cons entry nodes ih =>
    obtain ⟨p, node⟩ := entry
    by_cases hk : keep p = true
    · simp only [List.filter_cons, hk, ↓reduceIte, List.lookup_cons, ih]
    · have hne : (q == p) = false := by
        rw [beq_eq_false_iff_ne]
        rintro rfl
        exact hk h
      simp only [List.filter_cons, hk, Bool.false_eq_true, ↓reduceIte, List.lookup_cons, hne, ih]

theorem node?_put_self (t : Tree) (p : Names) (node : Node) :
    (t.put p node).node? p = some node := by
  simp [node?, put]

theorem node?_put_of_ne (t : Tree) {p q : Names} (node : Node) (h : q ≠ p) :
    (t.put p node).node? q = t.node? q := by
  have kept := lookup_filter (fun n => decide (n ≠ p)) (q := q) (by simpa using h) t.nodes
  have other : (q == p) = false := by simpa using h
  simpa [node?, put, List.lookup_cons, other] using kept

variable {t t' : Tree} {only : Names → Prop} {p : Names}

theorem isDirectory_of_node? {p : Names} {m : Instant} (h : t.node? p = some (.directory m)) :
    t.isDirectory p = true := by
  simp [isDirectory, h]

theorem exists_of_isDirectory {p : Names} (h : t.isDirectory p = true) :
    ∃ m, t.node? p = some (.directory m) := by
  unfold isDirectory at h
  split at h
  · next m hm => exact ⟨m, hm⟩
  · exact absurd h (by simp)

/-- The bytes of a file and the instant at which it was modified. -/
def file? (t : Tree) (p : Names) : Option (ByteArray × Instant) :=
  match t.node? p with
  | some (.file bytes modified) => some (bytes, modified)
  | _ => none

theorem file?_eq_some {bytes : ByteArray} {m : Instant} :
    t.file? p = some (bytes, m) ↔ t.node? p = some (.file bytes m) := by
  unfold file?
  split
  · next h => simp [h]
  · next h => exact ⟨fun hf => absurd hf (by simp), fun hf => absurd hf (h bytes m)⟩

/-- The tree changes in the files with some names only, and keeps its links. -/
structure Edits (only : Names → Prop) (t t' : Tree) : Prop extends SameLinks t t' where
  file : ∀ p, ¬ only p → t'.file? p = t.file? p

theorem Edits.refl (only : Names → Prop) (t : Tree) : Edits only t t := ⟨.refl t, fun _ _ => rfl⟩

theorem Edits.trans {t'' : Tree} (h : Edits only t t') (h' : Edits only t' t'') :
    Edits only t t'' :=
  ⟨h.toSameLinks.trans h'.toSameLinks, fun p hp => (h'.file p hp).trans (h.file p hp)⟩

/-- No file changes. -/
abbrev EditsNone : Tree → Tree → Prop := Edits fun _ => False

theorem edits_tick (t : Tree) : Edits only t t.tick :=
  ⟨⟨rfl, fun _ _ => Iff.rfl⟩, fun _ _ => rfl⟩

theorem file?_put_self (t : Tree) (p : Names) (bytes : ByteArray) (m : Instant) :
    (t.put p (.file bytes m)).file? p = some (bytes, m) :=
  file?_eq_some.mpr (node?_put_self t p _)

theorem edits_put {node : Node} (hnode : ∀ target, node ≠ .link target)
    (hlink : ∀ target, t.node? p ≠ some (.link target))
    (hfile : ¬ only p → (t.put p node).file? p = t.file? p) : Edits only t (t.put p node) where
  workingDirectory := rfl
  link q target := by
    by_cases hqp : q = p
    · subst hqp
      rw [node?_put_self]
      exact ⟨fun h => absurd (Option.some.inj h) (hnode target), fun h => absurd h (hlink target)⟩
    · rw [node?_put_of_ne t node hqp]
  file q hq := by
    by_cases hqp : q = p
    · subst hqp
      exact hfile hq
    · rw [file?, file?, node?_put_of_ne t node hqp]

theorem edits_put_directory (m : Instant) (h : t.node? p = none ∨ t.isDirectory p = true) :
    Edits only t (t.put p (.directory m)) := by
  have hput : (t.put p (.directory m)).file? p = none := by rw [file?, node?_put_self]
  refine edits_put (by simp) ?_ fun _ => hput.trans ?_
  · rcases h with h | h
    · simp [h]
    · obtain ⟨m, hm⟩ := exists_of_isDirectory h
      simp [hm]
  · rcases h with h | h
    · simp [file?, h]
    · obtain ⟨m, hm⟩ := exists_of_isDirectory h
      simp [file?, hm]

theorem edits_put_file (bytes : ByteArray) (m : Instant) (honly : only p)
    (hlink : ∀ target, t.node? p ≠ some (.link target)) :
    Edits only t (t.put p (.file bytes m)) :=
  edits_put (by simp) hlink fun h => absurd honly h

theorem edits_noteChange (t : Tree) (p : Names) : Edits only t (t.noteChange p) := by
  unfold noteChange
  split
  · next m hm => exact edits_put_directory t.now (.inr (isDirectory_of_node? hm))
  · exact .refl only t

theorem edits_add_directory (m : Instant) (h : t.node? p = none) :
    Edits only t (t.add p (.directory m)) :=
  ((edits_put_directory m (.inl h)).trans (edits_noteChange _ _)).trans (edits_tick _)

theorem edits_add_file (bytes : ByteArray) (m : Instant) (honly : only p) (h : t.node? p = none) :
    Edits only t (t.add p (.file bytes m)) :=
  ((edits_put_file bytes m honly (by simp [h])).trans (edits_noteChange _ _)).trans (edits_tick _)

theorem file?_add (t : Tree) (p : Names) (bytes : ByteArray) (m : Instant) :
    (t.add p (.file bytes m)).file? p = some (bytes, m) := by
  have hafter : EditsNone (t.put p (.file bytes m)) (t.add p (.file bytes m)) :=
    (edits_noteChange _ _).trans (edits_tick _)
  rw [hafter.file p (fun h => h), file?_put_self]

section Making

/-! Making directories only ever puts a directory where nothing was. -/

variable {R : Tree → Tree → Prop} (hrefl : ∀ t, R t t)
  (htrans : ∀ {t t' t''}, R t t' → R t' t'' → R t t'')
  (hadd : ∀ t p, t.node? p = none → R t (t.add p (.directory t.now)))
include hrefl hadd

theorem makeDir_induction {path : List String} (h : t.makeDir path = .ok t') : R t t' := by
  dsimp only [makeDir] at h
  split at h
  · split at h
    · obtain rfl := Except.ok.inj h
      exact hrefl t
    · exact absurd h (by simp)
  · cases hentry : t.entry? path with
    | error fault => exact absurd h (by simp [hentry, bind, Except.bind])
    | ok entry =>
      simp only [hentry, bind, Except.bind] at h
      split at h
      · exact absurd h (by simp)
      · split at h
        · exact absurd h (by simp)
        · next hnone =>
          obtain rfl := Except.ok.inj h
          exact hadd t _ hnone

theorem atOnce_makeDir_induction (path : List String) (t : Tree) :
    R t (t.atOnce (t.makeDir path)).2 := by
  cases hmade : t.makeDir path with
  | error fault => exact hrefl t
  | ok made => exact makeDir_induction hrefl hadd hmade

include htrans

theorem makeDirsBelow_induction (paths : List (List String)) (t : Tree) :
    R t (t.makeDirsBelow paths).2 := by
  induction paths generalizing t with
  | nil => exact hrefl t
  | cons path above ih =>
    rw [makeDirsBelow]
    split
    · split
      · next made hmade =>
        have habove := ih t
        rw [hmade] at habove
        exact htrans habove (atOnce_makeDir_induction hrefl hadd path made)
      · exact ih t
    · exact atOnce_makeDir_induction hrefl hadd path t

theorem makeDirs_induction (path : String) (t : Tree) : R t (t.makeDirs path).2 := by
  unfold makeDirs
  split
  · exact hrefl t
  · exact makeDirsBelow_induction hrefl htrans hadd _ t

end Making

theorem edits_makeDirs (path : String) (t : Tree) : Edits only t (t.makeDirs path).2 :=
  makeDirs_induction (.refl only) .trans (fun t _ h => edits_add_directory t.now h) path t

/-- A file is written where its path leads, if no directory or link is there. -/
theorem writeBytes_of_locate {path : String} (h : t.locate true path = .ok p)
    (hlink : ∀ target, t.node? p ≠ some (.link target)) (hdirectory : t.isDirectory p = false)
    (bytes : ByteArray) : ∃ t', t.writeBytes path bytes = .ok t' ∧
      Edits (· = p) t t' ∧ t'.file? p = some (bytes, t.now) := by
  simp only [writeBytes, h, bind, Except.bind]
  cases hnode : t.node? p with
  | none => exact ⟨_, rfl, edits_add_file bytes t.now rfl hnode, file?_add t p bytes t.now⟩
  | some node =>
    cases node with
    | file old m =>
      have hput : Edits (· = p) t (t.put p (.file bytes t.now)) :=
        edits_put_file bytes t.now rfl hlink
      exact ⟨_, rfl, hput.trans (edits_tick _), file?_put_self t p bytes t.now⟩
    | directory m => exact absurd (isDirectory_of_node? hnode) (by simp [hdirectory])
    | link target => exact absurd hnode (hlink target)

theorem edits_writeBytes {path : String} {bytes : ByteArray} (hp : t.locate true path = .ok p)
    (hlink : ∀ target, t.node? p ≠ some (.link target))
    (h : t.writeBytes path bytes = .ok t') :
    Edits (· = p) t t' ∧ t'.file? p = some (bytes, t.now) := by
  cases hdirectory : t.isDirectory p with
  | true =>
    obtain ⟨m, hm⟩ := exists_of_isDirectory hdirectory
    exact absurd h (by simp [writeBytes, hp, hm, bind, Except.bind])
  | false =>
    obtain ⟨made, hmade, hedits, hfile⟩ := writeBytes_of_locate hp hlink hdirectory bytes
    obtain rfl := Except.ok.inj (hmade.symm.trans h)
    exact ⟨hedits, hfile⟩

end CompactSchema.Files.Tree
