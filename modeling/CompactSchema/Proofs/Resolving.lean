import CompactSchema.Proofs.Changes
import CompactSchema.Store

set_option autoImplicit false

/-!
# A store in a tree of files

What a store does in a tree, step by step: what comes of it, and the tree it leaves behind.
-/

namespace CompactSchema

open Files

namespace Files.Tree

/-- What comes of doing something in a tree, and the tree afterwards. -/
def run {α : Type} (t : Tree) (action : StateM Tree α) : α × Tree := (StateT.run action t).run

theorem run_pure {α : Type} (t : Tree) (a : α) : t.run (pure a) = (a, t) := rfl

theorem run_bind {α β : Type} (t : Tree) (action : StateM Tree α) (next : α → StateM Tree β) :
    t.run (action >>= next) = (t.run action).2.run (next (t.run action).1) := rfl

theorem run_canonical (t : Tree) (path : String) :
    t.run (Access.canonical path) = (t.canonical path, t) := rfl

theorem run_modified (t : Tree) (path : String) :
    t.run (Access.modified path) = (t.modified path, t) := rfl

theorem run_read (t : Tree) (path : String) : t.run (Access.read path) = (t.readText path, t) := rfl

theorem run_makeDirs (t : Tree) (path : String) :
    t.run (Access.makeDirs path) = t.makeDirs path := rfl

theorem run_write (t : Tree) (path text : String) :
    t.run (Access.write path text) = t.atOnce (t.writeText path text) := rfl

variable {t : Tree} {path : String}

theorem readText_eq_ok {text : String} : t.readText path = .ok text ↔
    ∃ p bytes m, t.find path = .ok (p, .file bytes m) ∧ String.fromUTF8? bytes = some text := by
  unfold readText readBytes
  cases hfind : t.find path with
  | error fault => simp [bind, Except.bind]
  | ok found =>
    obtain ⟨p, node⟩ := found
    cases node with
    | file bytes m =>
      cases htext : String.fromUTF8? bytes with
      | none => simp [bind, Except.bind, htext]
      | some found =>
        simp only [bind, Except.bind, htext, Except.ok.injEq]
        constructor
        · rintro rfl
          exact ⟨p, bytes, m, rfl, htext⟩
        · rintro ⟨p', bytes', m', heq, hbytes⟩
          obtain ⟨rfl, hnode⟩ := Prod.mk.inj heq
          obtain ⟨rfl, rfl⟩ := Node.file.inj hnode
          exact Option.some.inj (htext.symm.trans hbytes)
    | directory m => simp [bind, Except.bind]
    | link target => simp [bind, Except.bind]

theorem modified_of_find {p : Names} {bytes : ByteArray} {m : Instant}
    (h : t.find path = .ok (p, .file bytes m)) : t.modified path = .ok m := by
  simp [modified, h, bind, Except.bind]

end Files.Tree

namespace Store

open Tree

variable {s : Store} {t : Tree} {path schema : String} {m : Instant}

/-- What the bytes of a cache file are read as. -/
def decoded? (bytes : ByteArray) : Option Definition := do
  Definition.deserialize? (← String.fromUTF8? bytes)

/-- A definition comes from a cache file that is not older than the notation file. -/
theorem run_readCache (t : Tree) (cache : String) (since : Instant) :
    ∃ d?, t.run (readCache cache since) = (d?, t) ∧ ∀ d, d? = some d →
      ∃ p bytes m, t.locate false cache = .ok p ∧ t.file? p = some (bytes, m) ∧ since ≤ m ∧
        decoded? bytes = some d := by
  simp only [readCache, run_bind, run_modified]
  cases hm : t.modified cache with
  | error fault => exact ⟨none, rfl, by simp⟩
  | ok m =>
    dsimp only
    split
    · exact ⟨none, rfl, by simp⟩
    · next hsince =>
      simp only [run_bind, run_read]
      cases htext : t.readText cache with
      | error fault => exact ⟨none, rfl, by simp⟩
      | ok text =>
        refine ⟨Definition.deserialize? text, rfl, fun d hd => ?_⟩
        obtain ⟨p, bytes, n, hfind, hbytes⟩ := readText_eq_ok.mp htext
        obtain rfl : n = m := Except.ok.inj ((modified_of_find hfind).symm.trans hm)
        obtain ⟨hlocate, hnode⟩ := find_eq_ok.mp hfind
        refine ⟨p, bytes, n, hlocate, file?_eq_some.mpr hnode, Int.not_lt.mp hsince, ?_⟩
        simpa [decoded?, hbytes] using hd

theorem run_writeCache (s : Store) (t : Tree) (schema : String) (d : Definition) :
    t.run (s.writeCache schema d) =
      match t.makeDirs s.directory with
      | (.error fault, t) => (.error (.inaccessible s.directory fault), t)
      | (.ok (), t) =>
        match t.writeText (s.cachePath schema) d.serialize with
        | .error fault => (.error (.inaccessible (s.cachePath schema) fault), t)
        | .ok t => (.ok (), t) := by
  simp only [writeCache, run_bind, run_makeDirs]
  generalize t.makeDirs s.directory = change
  obtain ⟨result, t⟩ := change
  cases result with
  | error fault => rfl
  | ok =>
    simp only [run_bind, run_write]
    cases t.writeText (s.cachePath schema) d.serialize <;> rfl

theorem run_compile (s : Store) (t : Tree) (schema : String) :
    t.run (s.compile schema) =
      match t.readText schema with
      | .error fault => (.error (.inaccessible schema fault), t)
      | .ok text =>
        match Definition.ofText text with
        | .error fault => (.error (.unreadable schema fault), t)
        | .ok d =>
          match t.run (s.writeCache schema d) with
          | (.error fault, t) => (.error fault, t)
          | (.ok (), t) => (.ok d, t) := by
  simp only [compile, run_bind, run_read]
  cases t.readText schema with
  | error fault => rfl
  | ok text =>
    dsimp only
    cases Definition.ofText text with
    | error fault => rfl
    | ok d =>
      simp only [run_bind]
      generalize t.run (s.writeCache schema d) = outcome
      obtain ⟨result, t⟩ := outcome
      cases result <;> rfl

theorem run_load (s : Store) (t : Tree) (schema : String) (m : Instant) :
    t.run (s.load schema m) =
      match t.run (readCache (s.cachePath schema) m) with
      | (some d, t) => (.ok d, t)
      | (none, t) => t.run (s.compile schema) := by
  simp only [load, run_bind]
  generalize t.run (readCache (s.cachePath schema) m) = outcome
  obtain ⟨d?, t⟩ := outcome
  cases d? <;> rfl

theorem run_resolve (s : Store) (t : Tree) (path : String) :
    t.run (s.resolve path) =
      match t.canonical path with
      | .error fault => ((.error (.inaccessible path fault), s), t)
      | .ok schema =>
        match t.modified schema with
        | .error fault => ((.error (.inaccessible schema fault), s), t)
        | .ok m =>
          match s.current? schema m with
          | some entry => ((.ok entry, s), t)
          | none =>
            match t.run (s.load schema m) with
            | (.error fault, t) => ((.error fault, s), t)
            | (.ok d, t) => ((.ok (s.remember schema m d).1, (s.remember schema m d).2), t) := by
  simp only [resolve, find, run_bind, run_canonical]
  cases t.canonical path with
  | error fault => rfl
  | ok schema =>
    simp only [run_bind, run_modified]
    cases t.modified schema with
    | error fault => rfl
    | ok m =>
      simp only [run_pure]
      cases s.current? schema m with
      | some entry => rfl
      | none =>
        simp only [run_bind]
        generalize t.run (s.load schema m) = outcome
        obtain ⟨result, t⟩ := outcome
        cases result <;> rfl

theorem run_check (s : Store) (t : Tree) (path : String) (document : Json) :
    t.run (s.check path document) =
      match t.run (s.resolve path) with
      | ((.error fault, s), t) => ((.error fault, s), t)
      | ((.ok entry, s), t) =>
        match entry.definition.reject? s.options document with
        | some rejection => ((.error (.rejected rejection), s), t)
        | none => ((.ok (), s), t) := by
  simp only [check, run_bind]
  generalize t.run (s.resolve path) = outcome
  obtain ⟨⟨result, s⟩, t⟩ := outcome
  cases result with
  | error fault => rfl
  | ok entry =>
    dsimp only
    cases entry.definition.reject? s.options document <;> rfl

end Store

end CompactSchema
