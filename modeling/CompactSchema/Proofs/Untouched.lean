import CompactSchema.Proofs.Effects
import CompactSchema.Proofs.Growth

set_option autoImplicit false

/-!
# What a resolution leaves as it is

A resolution writes one cache file at most. Another file stands where it stood and is as old as it
was, so that a path that was resolved once is resolved from memory from then on.
-/

namespace CompactSchema

namespace Files.Tree

variable {t t' : Tree} {p : Names} {path : String}

/-- On the way from the root directory to the working directory there is nothing but directories. -/
def Rooted (t : Tree) : Prop :=
  ∀ q, q <+: t.workingDirectory → t.isDirectory q = true

theorem Rooted.of_grows (h : t.Rooted) (hgrows : Grows t t') : t'.Rooted := by
  intro q hq
  rw [hgrows.workingDirectory] at hq
  exact hgrows.directory q (h q hq)

/-- A walk that begins below nothing but directories ends at no link. -/
theorem walk_ne_link {made : Bool} {links : Nat} {q : Names} {todo : List String}
    (hp : ∀ r, r <+: p → t.isDirectory r = true) (h : t.walk made links p todo = .ok q)
    (target : String) : t.node? q ≠ some (.link target) := by
  -- What is kept on the way is that directories lead to where the walk stands.
  fun_induction t.walk made links p todo with
  | case1 links p =>
    obtain rfl := Except.ok.inj h
    obtain ⟨m, hm⟩ := exists_of_isDirectory (hp p (List.prefix_refl p))
    simp [hm]
  | case2 links p rest ih => exact ih hp h
  | case3 => exact absurd h (by simp)
  | case4 links p rest hempty hmade ih => exact ih hp h
  | case5 links p rest hempty hmade hhere ih =>
    exact ih (fun r hr => hp r (hr.trans (List.dropLast_prefix p))) h
  | case6 => exact absurd h (by simp)
  | case7 links p name rest hempty hmade hhere hup hlong at' hnode hrest =>
    obtain rfl := Except.ok.inj h
    simp [hnode]
  | case8 => exact absurd h (by simp)
  | case9 links p name rest hempty hmade hhere hup hlong at' bytes m hnode hrest =>
    obtain rfl := Except.ok.inj h
    simp [hnode]
  | case10 => exact absurd h (by simp)
  | case11 links p name rest hempty hmade hhere hup hlong at' m hnode ih =>
    refine ih (fun r hr => ?_) h
    rcases List.prefix_concat_iff.mp hr with rfl | hr
    · exact isDirectory_of_node? hnode
    · exact hp r hr
  | case12 => exact absurd h (by simp)
  | case13 p name rest hempty hmade hhere hup hlong at' target hnode links path ih =>
    refine ih (fun r hr => ?_) h
    split at hr
    · exact hp r (hr.trans List.nil_prefix)
    · exact hp r hr

theorem Rooted.locate_ne_link (h : t.Rooted) {made : Bool} (hp : t.locate made path = .ok p)
    (target : String) : t.node? p ≠ some (.link target) := by
  refine walk_ne_link (fun r hr => ?_) (locate_eq_ok.mp hp).2 target
  unfold origin at hr
  split at hr
  · exact h r (hr.trans List.nil_prefix)
  · exact h r hr

end Files.Tree

namespace Store

open Files Files.Tree

section Writing

variable {s : Store} {schema path : String} {d : Definition} {t t' : Tree}

/-- The directory is made first, and the cache file is written where its path leads then. -/
theorem Writes.steps (h : s.Writes schema d t t') (hroot : t.Rooted) :
    ∃ made p, Grows t made ∧ EditsNone t made ∧ made.locate true (s.cachePath schema) = .ok p ∧
      Grows made t' ∧ Edits (· = p) made t' := by
  obtain ⟨made, hmade, -, hwrite, p, hp, -, -⟩ := h
  have hgrows : Grows t (t.makeDirs s.directory).2 := grows_makeDirs s.directory t
  have hedits : EditsNone t (t.makeDirs s.directory).2 := edits_makeDirs s.directory t
  rw [hmade] at hgrows hedits
  have hlink := (hroot.of_grows hgrows).locate_ne_link hp
  exact ⟨made, p, hgrows, hedits, hp, grows_writeBytes hp hlink hwrite,
    (edits_writeBytes hp hlink hwrite).1⟩

theorem Writes.grows (h : s.Writes schema d t t') (hroot : t.Rooted) : Grows t t' := by
  obtain ⟨made, p, hmade, -, -, hwritten, -⟩ := h.steps hroot
  exact hmade.trans hwritten

/-- A file that the path of the cache file does not lead to stays as it is. -/
theorem Writes.find_eq (h : s.Writes schema d t t') (hroot : t.Rooted) {q : Names}
    {bytes : ByteArray} {m : Instant} (hfind : t.find path = .ok (q, .file bytes m))
    (hapart : ∀ u, SameLinks t u → u.locate true (s.cachePath schema) ≠ .ok q) :
    t'.find path = .ok (q, .file bytes m) := by
  obtain ⟨made, p, hgrows, hedits, hp, hgrows', hedits'⟩ := h.steps hroot
  have hne : ¬ q = p := by
    rintro rfl
    exact hapart made hgrows.toSameLinks hp
  exact (hgrows.trans hgrows').find_file ((hedits'.file q hne).trans (hedits.file q id)) hfind

end Writing

namespace World

variable {w : World} {path schema : String} {entry : Entry}

/-- A path that is resolved leads to the same file of the same instant afterwards. -/
def Stays (w : World) (path : String) : Prop :=
  ∀ schema entry, (w.resolve path).1 = .ok entry → w.Finds path schema entry.modified →
    (w.resolve path).2.Finds path schema entry.modified

/-- The notation file stays if the path of its cache file does not lead to it. -/
theorem stays_of_apart {q : Names} {bytes : ByteArray} {m : Instant} (hroot : w.tree.Rooted)
    (hpath : w.tree.canonical path = .ok schema)
    (hfind : w.tree.find schema = .ok (q, .file bytes m))
    (hapart : ∀ t, SameLinks w.tree t → t.locate true (w.store.cachePath schema) ≠ .ok q) :
    w.Stays path := by
  intro other entry hentry hfinds
  obtain rfl : other = schema := Except.ok.inj (hfinds.canonical.symm.trans hpath)
  have hends := ends_resolve w path
  rw [hentry] at hends
  obtain ⟨found, hfound, hsettles⟩ := hends.of_ok
  obtain rfl : found = other := Except.ok.inj (hfound.canonical.symm.trans hpath)
  rcases hsettles.files with htree | hwrites
  · constructor
    · rw [htree, hpath]
    · rw [htree, hfinds.modified]
  · constructor
    · exact (hwrites.grows hroot).canonical_eq hpath
    · rw [modified_of_find (hwrites.find_eq hroot hfind hapart), ← modified_of_find hfind,
        hfinds.modified]

/-- What was resolved once is resolved from memory from then on. -/
theorem resolve_of_stays (h : (w.resolve path).1 = .ok entry) (hstays : w.Stays path) :
    (w.resolve path).2.resolve path = (.ok entry, (w.resolve path).2) := by
  have hends := ends_resolve w path
  rw [h] at hends
  obtain ⟨schema, hfinds, hsettles⟩ := hends.of_ok
  exact resolve_of_current (hstays schema entry h hfinds)
    (current?_eq_some.mpr ⟨hsettles.kept, rfl⟩)

end World

end Store

end CompactSchema
