import CompactSchema.Proofs.Changes

set_option autoImplicit false

/-!
# Trees that grow

Making directories and writing files takes nothing away: what a path leads to is still there, and
directories can still be gone through. What was found before is found afterwards.
-/

namespace CompactSchema.Files.Tree

/-- Nothing was taken away, and time goes on. -/
structure Grows (t t' : Tree) : Prop extends SameLinks t t' where
  node : ∀ p, t.node? p ≠ none → t'.node? p ≠ none
  directory : ∀ p, t.isDirectory p = true → t'.isDirectory p = true
  now_le : t.now ≤ t'.now

variable {t t' : Tree} {p : Names}

theorem Grows.refl (t : Tree) : Grows t t :=
  ⟨.refl t, fun _ h => h, fun _ h => h, Int.le_refl _⟩

theorem Grows.trans {t'' : Tree} (h : Grows t t') (h' : Grows t' t'') : Grows t t'' where
  toSameLinks := h.toSameLinks.trans h'.toSameLinks
  node p hp := h'.node p (h.node p hp)
  directory p hp := h'.directory p (h.directory p hp)
  now_le := Int.le_trans h.now_le h'.now_le

theorem grows_tick (t : Tree) : Grows t t.tick :=
  ⟨⟨rfl, fun _ _ => Iff.rfl⟩, fun _ h => h, fun _ h => h, Int.le_add_one (Int.le_refl _)⟩

theorem isDirectory_put_of_ne {node : Node} {q : Names} (h : q ≠ p) :
    (t.put p node).isDirectory q = t.isDirectory q := by
  rw [isDirectory, isDirectory, node?_put_of_ne t node h]

/-- A node that is no link takes a place where no link is, and no directory unless it is one. -/
theorem grows_put {node : Node} (hnode : ∀ target, node ≠ .link target)
    (hlink : ∀ target, t.node? p ≠ some (.link target))
    (hdirectory : t.isDirectory p = true → ∃ m, node = .directory m) :
    Grows t (t.put p node) where
  toSameLinks := by
    have hedits : Edits (· = p) t (t.put p node) :=
      edits_put hnode hlink fun hp => absurd rfl hp
    exact hedits.toSameLinks
  node q hq := by
    by_cases hqp : q = p
    · rw [hqp, node?_put_self]
      simp
    · rwa [node?_put_of_ne t node hqp]
  directory q hq := by
    by_cases hqp : q = p
    · subst hqp
      obtain ⟨m, rfl⟩ := hdirectory hq
      exact isDirectory_of_node? (node?_put_self t q _)
    · rwa [isDirectory_put_of_ne hqp]
  now_le := Int.le_refl _

theorem grows_noteChange (t : Tree) (p : Names) : Grows t (t.noteChange p) := by
  unfold noteChange
  split
  · next m hm => exact grows_put (by simp) (by simp [hm]) fun _ => ⟨t.now, rfl⟩
  · exact .refl t

theorem grows_add {node : Node} (hnode : ∀ target, node ≠ .link target) (h : t.node? p = none) :
    Grows t (t.add p node) := by
  have hput : Grows t (t.put p node) :=
    grows_put hnode (by simp [h]) fun hd => absurd hd (by simp [isDirectory, h])
  exact (hput.trans (grows_noteChange _ _)).trans (grows_tick _)

theorem grows_makeDirs (path : String) (t : Tree) : Grows t (t.makeDirs path).2 :=
  makeDirs_induction .refl .trans (fun _ _ h => grows_add (by simp) h) path t

theorem grows_writeBytes {path : String} {bytes : ByteArray} (hp : t.locate true path = .ok p)
    (hlink : ∀ target, t.node? p ≠ some (.link target))
    (h : t.writeBytes path bytes = .ok t') : Grows t t' := by
  simp only [writeBytes, hp, bind, Except.bind] at h
  cases hnode : t.node? p with
  | none =>
    rw [hnode] at h
    obtain rfl := Except.ok.inj h
    exact grows_add (by simp) hnode
  | some node =>
    rw [hnode] at h
    cases node with
    | file old m =>
      obtain rfl := Except.ok.inj h
      have hput : Grows t (t.put p (.file bytes t.now)) :=
        grows_put (by simp) hlink fun hd => absurd hd (by simp [isDirectory, hnode])
      exact hput.trans (grows_tick _)
    | directory m => exact absurd h (by simp)
    | link target => exact absurd hnode (hlink target)

/-! ## Paths lead where they led -/

theorem walk_last {made : Bool} {links : Nat} {name : String} (hempty : ¬ name = "")
    (hhere : ¬ name = ".") (hup : ¬ name = "..") (hlong : ¬ 255 < name.utf8ByteSize)
    (hlink : ∀ target, t.node? (p ++ [name]) ≠ some (.link target)) :
    t.walk made links p [name] = .ok (p ++ [name]) := by
  rw [walk_name t links p hempty (by simp [hhere, hup]) hhere hup hlong]
  cases hnode : t.node? (p ++ [name]) with
  | none => rfl
  | some node =>
    cases node with
    | file bytes m => rfl
    | directory m =>
      dsimp only
      rw [walk]
    | link target => exact absurd hnode (hlink target)

/-- A file that may be made is found as well, and in a tree that has grown. -/
theorem Grows.walk_eq (h : Grows t t') {made : Bool} {links : Nat} {p q : Names}
    {todo : List String} (hq : t.walk made links p todo = .ok q) :
    t'.walk false links p todo = .ok q := by
  fun_induction t.walk made links p todo with
  | case1 links p => rwa [walk]
  | case2 links p rest ih =>
    rw [walk, if_pos rfl]
    exact ih hq
  | case3 => exact absurd hq (by simp)
  | case4 links p rest hempty hmade ih =>
    rw [walk, if_neg hempty, if_neg (by simp), if_pos rfl]
    exact ih hq
  | case5 links p rest hempty hmade hhere ih =>
    rw [walk, if_neg hempty, if_neg (by simp), if_neg hhere, if_pos rfl]
    exact ih hq
  | case6 => exact absurd hq (by simp)
  | case7 links p name rest hempty hmade hhere hup hlong at' hnode hrest =>
    obtain rfl := List.isEmpty_iff.mp hrest
    rw [← Except.ok.inj hq]
    refine walk_last hempty hhere hup hlong fun target htarget => ?_
    exact absurd ((h.link _ _).mp htarget) (by simp [hnode, at'])
  | case8 => exact absurd hq (by simp)
  | case9 links p name rest hempty hmade hhere hup hlong at' bytes m hnode hrest =>
    obtain rfl := List.isEmpty_iff.mp hrest
    rw [← Except.ok.inj hq]
    refine walk_last hempty hhere hup hlong fun target htarget => ?_
    exact absurd ((h.link _ _).mp htarget) (by simp [hnode, at'])
  | case10 => exact absurd hq (by simp)
  | case11 links p name rest hempty hmade hhere hup hlong at' m hnode ih =>
    obtain ⟨m', hm'⟩ := exists_of_isDirectory (h.directory _ (isDirectory_of_node? hnode))
    rw [walk_name t' links p hempty (by simp) hhere hup hlong, hm']
    exact ih hq
  | case12 => exact absurd hq (by simp)
  | case13 p name rest hempty hmade hhere hup hlong at' target hnode links path ih =>
    rw [walk_name t' _ p hempty (by simp) hhere hup hlong, (h.link _ _).mpr hnode]
    exact ih hq

theorem Grows.locate_eq (h : Grows t t') {made : Bool} {path : String}
    (hp : t.locate made path = .ok p) : t'.locate false path = .ok p := by
  obtain ⟨hchecked, hwalk⟩ := locate_eq_ok.mp hp
  refine locate_eq_ok.mpr ⟨hchecked, ?_⟩
  rw [origin, h.workingDirectory]
  exact h.walk_eq hwalk

theorem Grows.find_eq (h : Grows t t') {path : String} {node : Node}
    (hfind : t.find path = .ok (p, node)) : ∃ node', t'.find path = .ok (p, node') := by
  obtain ⟨hlocate, hnode⟩ := find_eq_ok.mp hfind
  obtain ⟨node', hnode'⟩ := Option.ne_none_iff_exists'.mp (h.node p (by simp [hnode]))
  exact ⟨node', find_eq_ok.mpr ⟨h.locate_eq hlocate, hnode'⟩⟩

theorem Grows.canonical_eq (h : Grows t t') {path text : String}
    (htext : t.canonical path = .ok text) : t'.canonical path = .ok text := by
  unfold canonical at htext ⊢
  cases hfind : t.find path with
  | error fault => exact absurd htext (by simp [hfind, Except.map])
  | ok found =>
    obtain ⟨p, node⟩ := found
    obtain ⟨node', hfind'⟩ := h.find_eq hfind
    rw [hfind] at htext
    rw [hfind']
    exact htext

theorem Grows.find_file (h : Grows t t') {path : String} {bytes : ByteArray} {m : Instant}
    (hfile : t'.file? p = t.file? p) (hfind : t.find path = .ok (p, .file bytes m)) :
    t'.find path = .ok (p, .file bytes m) := by
  obtain ⟨hlocate, hnode⟩ := find_eq_ok.mp hfind
  rw [file?_eq_some.mpr hnode, file?_eq_some] at hfile
  exact find_eq_ok.mpr ⟨h.locate_eq hlocate, hfile⟩

end CompactSchema.Files.Tree
