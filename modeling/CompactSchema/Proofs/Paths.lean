import CompactSchema.Files.Change

set_option autoImplicit false

/-!
# Where paths lead

A path that leads somewhere leads to the same names in every tree with the same links, whatever
directories and files come and go. The text of names leads to these names if no link is on the way.
-/

namespace CompactSchema.Files.Tree

/-- What stands at a name is looked up where the name is none of those with a meaning of their own
    and not too long. -/
theorem walk_name (t : Tree) {made : Bool} {name : String} {rest : List String} (links : Nat)
    (p : Names) (hempty : ¬ name = "")
    (hmade : ¬ (made && rest.all (· = "") && (!rest.isEmpty || name = "." || name = "..")) = true)
    (hhere : ¬ name = ".") (hup : ¬ name = "..") (hlong : ¬ 255 < name.utf8ByteSize) :
    t.walk made links p (name :: rest) =
      match t.node? (p ++ [name]) with
      | none => if rest.isEmpty then .ok (p ++ [name]) else .error .notFound
      | some (.file _ _) => if rest.isEmpty then .ok (p ++ [name]) else .error .notADirectory
      | some (.directory _) => t.walk made links (p ++ [name]) rest
      | some (.link target) =>
        match links with
        | 0 => .error .tooManyLinks
        | links + 1 =>
          t.walk made links (if isAbsolute (segmentsOf target) then [] else p)
            (segmentsOf target ++ rest) := by
  rw [walk, if_neg hempty, if_neg hmade, if_neg hhere, if_neg hup]
  exact if_neg hlong

/-- What a walk that leads somewhere did with a name: it was the last one, or that of a directory or
    of a link. -/
theorem walk_name_ok {t : Tree} {made : Bool} {links : Nat} {p q : Names} {name : String}
    {rest : List String} (hempty : ¬ name = "") (hhere : ¬ name = ".") (hup : ¬ name = "..")
    (h : t.walk made links p (name :: rest) = .ok q) :
    (rest = [] ∧ q = p ++ [name] ∧ ∀ target, t.node? (p ++ [name]) ≠ some (.link target)) ∨
      (∃ m, t.node? (p ++ [name]) = some (.directory m) ∧
        t.walk made links (p ++ [name]) rest = .ok q) ∨
      ∃ target fewer, t.node? (p ++ [name]) = some (.link target) ∧ links = fewer + 1 ∧
        t.walk made fewer (if isAbsolute (segmentsOf target) then [] else p)
          (segmentsOf target ++ rest) = .ok q := by
  by_cases hmade :
      (made && rest.all (· = "") && (!rest.isEmpty || name = "." || name = "..")) = true
  · rw [walk, if_neg hempty, if_pos hmade] at h
    exact absurd h (by simp)
  by_cases hlong : 255 < name.utf8ByteSize
  · rw [walk, if_neg hempty, if_neg hmade, if_neg hhere, if_neg hup, if_pos hlong] at h
    exact absurd h (by simp)
  rw [walk_name t links p hempty hmade hhere hup hlong] at h
  cases hnode : t.node? (p ++ [name]) with
  | none =>
    cases rest with
    | nil => exact .inl ⟨rfl, by simpa [hnode, eq_comm] using h, by simp⟩
    | cons second rest => exact absurd h (by simp [hnode])
  | some node =>
    rw [hnode] at h
    cases node with
    | file bytes m =>
      cases rest with
      | nil => exact .inl ⟨rfl, by simpa [eq_comm] using h, by simp⟩
      | cons second rest => exact absurd h (by simp)
    | directory m => exact .inr (.inl ⟨m, rfl, h⟩)
    | link target =>
      cases links with
      | zero => exact absurd h (by simp)
      | succ fewer => exact .inr (.inr ⟨target, fewer, rfl, rfl, h⟩)

/-- Two trees have the same links, and paths begin at the same directories. -/
structure SameLinks (t t' : Tree) : Prop where
  workingDirectory : t'.workingDirectory = t.workingDirectory
  link : ∀ p target, t'.node? p = some (.link target) ↔ t.node? p = some (.link target)

variable {t t' : Tree}

theorem SameLinks.refl (t : Tree) : SameLinks t t := ⟨rfl, fun _ _ => Iff.rfl⟩

theorem SameLinks.symm (h : SameLinks t t') : SameLinks t' t :=
  ⟨h.workingDirectory.symm, fun p target => (h.link p target).symm⟩

theorem SameLinks.trans {t'' : Tree} (h : SameLinks t t') (h' : SameLinks t' t'') :
    SameLinks t t'' :=
  ⟨h'.workingDirectory.trans h.workingDirectory,
    fun p target => (h'.link p target).trans (h.link p target)⟩

theorem walk_here_ok {made : Bool} {links : Nat} {p q : Names} {rest : List String}
    (h : t.walk made links p ("." :: rest) = .ok q) : t.walk made links p rest = .ok q := by
  rw [walk, if_neg (by decide)] at h
  split at h
  · exact absurd h (by simp)
  · rwa [if_pos rfl] at h

theorem walk_up_ok {made : Bool} {links : Nat} {p q : Names} {rest : List String}
    (h : t.walk made links p (".." :: rest) = .ok q) :
    t.walk made links p.dropLast rest = .ok q := by
  rw [walk, if_neg (by decide)] at h
  split at h
  · exact absurd h (by simp)
  · rwa [if_neg (by decide), if_pos rfl] at h

theorem walk_last_ok {made : Bool} {links : Nat} {p q : Names} {name : String}
    (hempty : ¬ name = "") (hhere : ¬ name = ".") (hup : ¬ name = "..")
    (hlink : ∀ target, t.node? (p ++ [name]) ≠ some (.link target))
    (h : t.walk made links p [name] = .ok q) : q = p ++ [name] := by
  rcases walk_name_ok hempty hhere hup h with ⟨-, hq, -⟩ | ⟨m, -, hq⟩ | ⟨target, -, htarget, -⟩
  · exact hq
  · rw [walk] at hq
    exact (Except.ok.inj hq).symm
  · exact absurd htarget (hlink target)

/-- Where a path leads is up to the links alone: directories and files that are missing only keep it
    from leading anywhere. -/
theorem walk_unique (h : SameLinks t t') {made made' : Bool} {links : Nat} {p q q' : Names}
    {todo : List String} (hq : t.walk made links p todo = .ok q)
    (hq' : t'.walk made' links p todo = .ok q') : q' = q := by
  -- The walk in `t` is followed. Where it ends at a name, the one in `t'` may find a directory
  -- there, and where it goes on from a directory, the one in `t'` may find nothing; both then end.
  fun_induction t.walk made links p todo with
  | case1 links p =>
    rw [walk] at hq'
    exact (Except.ok.inj hq').symm.trans (Except.ok.inj hq)
  | case2 links p rest ih =>
    rw [walk, if_pos rfl] at hq'
    exact ih hq hq'
  | case3 => exact absurd hq (by simp)
  | case4 links p rest hempty hmade ih => exact ih hq (walk_here_ok hq')
  | case5 links p rest hempty hmade hhere ih => exact ih hq (walk_up_ok hq')
  | case6 => exact absurd hq (by simp)
  | case7 links p name rest hempty hmade hhere hup hlong at' hnode hrest =>
    obtain rfl := List.isEmpty_iff.mp hrest
    have hlink : ∀ target, t'.node? (p ++ [name]) ≠ some (.link target) := fun target htarget =>
      absurd ((h.link _ _).mp htarget) (by simp [hnode, at'])
    rw [walk_last_ok hempty hhere hup hlink hq', ← Except.ok.inj hq]
  | case8 => exact absurd hq (by simp)
  | case9 links p name rest hempty hmade hhere hup hlong at' bytes m hnode hrest =>
    obtain rfl := List.isEmpty_iff.mp hrest
    have hlink : ∀ target, t'.node? (p ++ [name]) ≠ some (.link target) := fun target htarget =>
      absurd ((h.link _ _).mp htarget) (by simp [hnode, at'])
    rw [walk_last_ok hempty hhere hup hlink hq', ← Except.ok.inj hq]
  | case10 => exact absurd hq (by simp)
  | case11 links p name rest hempty hmade hhere hup hlong at' m hnode ih =>
    rcases walk_name_ok hempty hhere hup hq' with
      ⟨rfl, hq', -⟩ | ⟨m', -, hq'⟩ | ⟨target, -, hlink, -⟩
    · rw [walk] at hq
      exact hq'.trans (Except.ok.inj hq)
    · exact ih hq hq'
    · exact absurd ((h.link _ _).mp hlink) (by simp [hnode, at'])
  | case12 => exact absurd hq (by simp)
  | case13 p name rest hempty hmade hhere hup hlong at' target hnode links path ih =>
    have hlink := (h.link _ _).mpr hnode
    rcases walk_name_ok hempty hhere hup hq' with
      ⟨-, -, hother⟩ | ⟨m', hm', -⟩ | ⟨target', fewer, htarget, hfewer, hq'⟩
    · exact absurd hlink (hother target)
    · exact absurd (hlink.symm.trans hm') (by simp)
    · obtain rfl : target = target' := by simpa using hlink.symm.trans htarget
      obtain rfl : links = fewer := by simpa using hfewer
      exact ih (by simpa using hq) (by simpa using hq')

theorem eq_of_checked {path segments : List String} (h : checked path = .ok segments) :
    segments = path := by
  unfold checked at h
  split at h
  · exact absurd h (by simp)
  split at h
  · exact absurd h (by simp)
  split at h
  · exact absurd h (by simp)
  · exact (Except.ok.inj h).symm

theorem locate_eq_ok {made : Bool} {path : String} {p : Names} :
    t.locate made path = .ok p ↔ checked (segmentsOf path) = .ok (segmentsOf path) ∧
      t.walk made linkLimit (t.origin (segmentsOf path)) (segmentsOf path) = .ok p := by
  unfold locate
  cases hc : checked (segmentsOf path) with
  | error fault => simp [bind, Except.bind]
  | ok segments =>
    obtain rfl := eq_of_checked hc
    simp [bind, Except.bind]

theorem find_eq_ok {path : String} {p : Names} {node : Node} :
    t.find path = .ok (p, node) ↔ t.locate false path = .ok p ∧ t.node? p = some node := by
  unfold find
  cases t.locate false path with
  | error fault => simp [bind, Except.bind]
  | ok q =>
    simp only [bind, Except.bind, Except.ok.injEq]
    constructor
    · intro h
      split at h
      · next node' hnode =>
        obtain ⟨rfl, rfl⟩ := Prod.mk.inj (Except.ok.inj h)
        exact ⟨rfl, hnode⟩
      · exact absurd h (by simp)
    · rintro ⟨rfl, hnode⟩
      rw [hnode]

theorem locate_unique (h : SameLinks t t') {made made' : Bool} {path : String} {p p' : Names}
    (hp : t.locate made path = .ok p) (hp' : t'.locate made' path = .ok p') : p' = p := by
  have horigin : t'.origin = t.origin := by
    funext path
    rw [origin, origin, h.workingDirectory]
  obtain ⟨-, hwalk⟩ := locate_eq_ok.mp hp
  obtain ⟨-, hwalk'⟩ := locate_eq_ok.mp hp'
  rw [horigin] at hwalk'
  exact walk_unique h hwalk hwalk'

end CompactSchema.Files.Tree

namespace CompactSchema.Files

theorem segments_slash {name : List Char} (h : '/' ∉ name) (rest : List Char) :
    segments (name ++ '/' :: rest) = name :: segments rest := by
  induction name with
  | nil => simp [segments]
  | cons c name ih =>
    simp only [List.mem_cons, not_or] at h
    obtain ⟨hc, hname⟩ := h
    rw [List.cons_append, segments, if_neg fun heq => hc heq.symm, ih hname]

theorem segments_name {name : List Char} (h : '/' ∉ name) : segments name = [name] := by
  induction name with
  | nil => rfl
  | cons c name ih =>
    simp only [List.mem_cons, not_or] at h
    obtain ⟨hc, hname⟩ := h
    rw [segments, if_neg fun heq => hc heq.symm, ih hname]

theorem segments_intercalate {names : List (List Char)} (hne : names ≠ [])
    (h : ∀ name ∈ names, '/' ∉ name) : segments (['/'].intercalate names) = names := by
  induction names with
  | nil => exact absurd rfl hne
  | cons name names ih =>
    have hname := h name List.mem_cons_self
    cases names with
    | nil => rw [List.intercalate_singleton, segments_name hname]
    | cons second names =>
      have hnames := ih (List.cons_ne_nil _ _) fun n hn => h n (List.mem_cons_of_mem _ hn)
      rw [List.intercalate_cons_cons, List.append_assoc, List.singleton_append,
        segments_slash hname, hnames]

/-- Names that nothing but nodes can have, on the way to something below the root directory. -/
structure Names.Plain (p : Names) : Prop where
  ne_nil : p ≠ []
  plain : ∀ name ∈ p, name ≠ "" ∧ name ≠ "." ∧ name ≠ ".." ∧ '/' ∉ name.toList

theorem Names.segmentsOf_text {p : Names} (h : p.Plain) : segmentsOf p.text = "" :: p := by
  have hmap : p.map String.toList ≠ [] := by simpa using h.ne_nil
  have hslash : ∀ name ∈ p.map String.toList, '/' ∉ name := by
    intro name hname
    obtain ⟨n, hn, rfl⟩ := List.mem_map.mp hname
    exact (h.plain n hn).2.2.2
  have htext : p.text.toList = '/' :: ['/'].intercalate (p.map String.toList) := by
    simp [Names.text, String.toList_intercalate]
  rw [segmentsOf, htext, segments, if_pos rfl, segments_intercalate hmap hslash]
  simp [Function.comp_def]

namespace Tree

/-- No link stands on the way to the names, or at them. -/
def Straight (t : Tree) (p : Names) : Prop :=
  ∀ q target, q <+: p → t.node? q ≠ some (.link target)

variable {t t' : Tree}

theorem Straight.of_sameLinks {p : Names} (h : t.Straight p) (hlinks : SameLinks t t') :
    t'.Straight p :=
  fun q target hq hlink => h q target hq ((hlinks.link q target).mp hlink)

theorem walk_names {made : Bool} {links : Nat} {p q : Names} {names : List String}
    (hplain : ∀ name ∈ names, name ≠ "" ∧ name ≠ "." ∧ name ≠ "..")
    (hstraight : t.Straight (p ++ names)) (h : t.walk made links p names = .ok q) :
    q = p ++ names := by
  induction names generalizing p with
  | nil =>
    rw [walk] at h
    rw [List.append_nil, Except.ok.inj h]
  | cons name names ih =>
    obtain ⟨hempty, hhere, hup⟩ := hplain name List.mem_cons_self
    have honward := fun n hn => hplain n (List.mem_cons_of_mem _ hn)
    have hlink := fun target => hstraight (p ++ [name]) target (by simp)
    rcases walk_name_ok hempty hhere hup h with ⟨rfl, hq, -⟩ | ⟨m, -, hq⟩ | ⟨target, -, htarget, -⟩
    · exact hq
    · rw [ih honward (by simpa using hstraight) hq, List.append_assoc, List.singleton_append]
    · exact absurd htarget (hlink target)

/-- The text of the names leads to them or nowhere. -/
theorem locate_text {made : Bool} {p q : Names} (hp : p.Plain) (hstraight : t.Straight p)
    (h : t.locate made p.text = .ok q) : q = p := by
  have hsegments := Names.segmentsOf_text hp
  have horigin : t.origin ("" :: p) = [] := by
    have hpos : 0 < p.length := List.length_pos_iff.mpr hp.ne_nil
    simp [origin, isAbsolute, hpos]
  obtain ⟨-, hwalk⟩ := locate_eq_ok.mp h
  rw [hsegments, horigin, walk, if_pos rfl] at hwalk
  have hnames : ∀ name ∈ p, name ≠ "" ∧ name ≠ "." ∧ name ≠ ".." := fun name hn =>
    ⟨(hp.plain name hn).1, (hp.plain name hn).2.1, (hp.plain name hn).2.2.1⟩
  rw [walk_names hnames hstraight hwalk, List.nil_append]

end Tree

end CompactSchema.Files
