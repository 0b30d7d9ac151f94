import CompactSchema.CommandLine.Report
import CompactSchema.Proofs.Acceptance
import CompactSchema.Proofs.Reuse
import CompactSchema.Proofs.Untouched

set_option autoImplicit false

/-!
# Documents are judged on their own

The notation file is resolved once before the documents are read, and again for each of them. As long
as it stays as it is, the later resolutions find the definition in memory and change nothing, so that
what is said of a document does not depend on those before it.
-/

namespace CompactSchema

theorem Definition.reject?_eq_none {o : Options} {d : Definition} {j : Json} :
    d.reject? o j = none ↔ d.Accepts o j := by
  rw [← Validator.success_iff, Validator.validate_eq]
  exact Option.isNone_iff_eq_none.symm

theorem Store.World.run_eq {w w' : Store.World} {path : String}
    {result : Except Store.Fault Store.Entry} (h : w.resolve path = (result, w')) :
    w.tree.run (w.store.resolve path) = ((result, w'.store), w'.tree) := by
  unfold Store.World.resolve at h
  generalize w.tree.run (w.store.resolve path) = outcome at h
  obtain ⟨⟨result', store⟩, tree⟩ := outcome
  obtain ⟨rfl, rfl⟩ := Prod.mk.inj h
  rfl

namespace CommandLine

open Files Files.Tree Store

/-! ## What is said of a document -/

namespace Document

variable (o : Options) (d : Definition) (document : Document)

/-- Why a document is refused, if it is. -/
def reason? : Option String :=
  match Json.ofText document.text with
  | .error reason => some ("error parsing JSON: " ++ reason)
  | .ok value => (d.reject? o value).map Rejection.message

def message : Message :=
  match document.reason? o d with
  | none => accepted document.name
  | some reason => refused document.name reason

/-- The document is JSON, and the definition accepts it. -/
def Accepted : Prop := ∃ value, Json.ofText document.text = .ok value ∧ d.Accepts o value

variable {o d document}

theorem reason?_eq_none : document.reason? o d = none ↔ document.Accepted o d := by
  unfold reason? Accepted
  cases Json.ofText document.text with
  | error reason => simp
  | ok value => simp [Definition.reject?_eq_none]

theorem isNotice_message : (document.message o d).isNotice = true ↔ document.Accepted o d := by
  rw [← reason?_eq_none, message]
  cases document.reason? o d with
  | none => exact iff_of_true rfl rfl
  | some reason => exact iff_of_false Bool.false_ne_true (Option.some_ne_none reason)

end Document

/-- The messages are those on the documents, one on each, in their order: notices of the ones that
    are accepted, complaints about the others. The code tells whether all are accepted. -/
structure Report.Judges (r : Report) (o : Options) (d : Definition) (documents : List Document) :
    Prop where
  messages : r.messages = documents.map (Document.message o d)
  output : r.output = String.join ((documents.filter fun document =>
    (document.reason? o d).isNone).map fun document =>
      "Validation of " ++ document.name ++ " is successful" ++ "\n")
  errors : r.errors = String.join (documents.filterMap fun document =>
    (document.reason? o d).map fun reason =>
      "Validation of " ++ document.name ++ " failed: " ++ reason ++ "\n")
  code_le : r.code ≤ 1
  code_eq_zero : r.code = 0 ↔ ∀ document ∈ documents, document.Accepted o d

theorem judges_ofMessages (o : Options) (d : Definition) (documents : List Document) :
    (Report.ofMessages (documents.map (Document.message o d))).Judges o d documents where
  messages := rfl
  output := by
    unfold Report.output Report.ofMessages
    induction documents with
    | nil => rfl
    | cons document documents ih =>
      rw [List.map_cons, List.map_cons, String.join_cons, ih, Document.message, List.filter_cons]
      cases document.reason? o d with
      | none => exact String.join_cons.symm
      | some reason => exact String.empty_append
  errors := by
    unfold Report.errors Report.ofMessages
    induction documents with
    | nil => rfl
    | cons document documents ih =>
      rw [List.map_cons, List.map_cons, String.join_cons, ih, Document.message, List.filterMap_cons]
      cases document.reason? o d with
      | none => exact String.empty_append
      | some reason => exact String.join_cons.symm
  code_le := by
    unfold Report.ofMessages
    split <;> simp
  code_eq_zero := by
    simp [Report.ofMessages, Document.isNotice_message]

/-! ## Reading -/

/-- A name with what was read under it. -/
abbrev Source := String × Except Files.Fault String

def Document.source (document : Document) : Source := (document.name, .ok document.text)

/-- What the documents are read from, whether they can be read or not. -/
def Documents.sources (t : Tree) (input : Except Files.Fault String) : Documents → List Source
  | .standardInput => [("stdin", input)]
  | .files paths => paths.map fun path => (Text.quoted path, t.readText path)

/-- The documents, or the first fault. -/
def collect : List Source → Except Files.Fault (List Document)
  | [] => .ok []
  | (_, .error fault) :: _ => .error fault
  | (name, .ok text) :: sources => (collect sources).map (⟨name, text⟩ :: ·)

variable {t : Tree} {w w' : World} {schema : String} {entry : Entry}
  {input : Except Files.Fault String}

theorem collect_sources (documents : List Document) :
    collect (documents.map Document.source) = .ok documents := by
  induction documents with
  | nil => rfl
  | cons document documents ih =>
    rw [List.map_cons, Document.source, collect, ih]
    rfl

theorem collect_fault (documents : List Document) (name : String) (fault : Files.Fault)
    (after : List Source) :
    collect (documents.map Document.source ++ (name, .error fault) :: after) = .error fault := by
  induction documents with
  | nil => rfl
  | cons document documents ih =>
    rw [List.map_cons, List.cons_append, Document.source, collect, ih]
    rfl

/-- If anything cannot be read then there is a first one that cannot. -/
theorem exists_fault {sources : List Source} {name : String} {fault : Files.Fault}
    (h : (name, .error fault) ∈ sources) :
    ∃ (readable : List Document) (first : String) (cause : Files.Fault) (after : List Source),
      sources = readable.map Document.source ++ (first, .error cause) :: after := by
  induction sources with
  | nil => exact absurd h List.not_mem_nil
  | cons source sources ih =>
    obtain ⟨other, result⟩ := source
    cases result with
    | error cause => exact ⟨[], other, cause, sources, rfl⟩
    | ok text =>
      obtain ⟨readable, first, cause, after, rfl⟩ := ih (by simpa using h)
      exact ⟨⟨other, text⟩ :: readable, first, cause, after, rfl⟩

theorem run_readFiles (t : Tree) (paths : List String) : t.run (readFiles paths) =
    (collect (paths.map fun path => (Text.quoted path, t.readText path)), t) := by
  induction paths with
  | nil => rfl
  | cons path paths ih =>
    rw [readFiles, run_bind, run_read, List.map_cons]
    cases t.readText path with
    | error fault => rfl
    | ok text =>
      dsimp only
      rw [run_bind, ih, collect]
      cases collect (paths.map fun path => (Text.quoted path, t.readText path)) <;> rfl

theorem run_readDocuments (t : Tree) (input : Except Files.Fault String) (documents : Documents) :
    t.run (readDocuments (pure input) documents) = (collect (documents.sources t input), t) := by
  cases documents with
  | standardInput => cases input <;> rfl
  | files paths => exact run_readFiles t paths

/-! ## Judging -/

/-- Where the notation file is resolved from memory, a document is judged and nothing changes. -/
theorem run_judge (h : w.resolve schema = (.ok entry, w)) (document : Document) :
    w.tree.run (judge w.store schema document) =
      ((.ok (document.message w.store.options entry.definition), w.store), w.tree) := by
  unfold judge Document.message Document.reason?
  cases Json.ofText document.text with
  | error reason => rfl
  | ok value =>
    simp only [run_bind, run_check, World.run_eq h]
    cases entry.definition.reject? w.store.options value <;> rfl

theorem run_judgeAll (h : w.resolve schema = (.ok entry, w)) (documents : List Document) :
    w.tree.run (judgeAll w.store schema documents) =
      (documents.map (Document.message w.store.options entry.definition), w.tree) := by
  induction documents with
  | nil => rfl
  | cons document documents ih =>
    simp only [judgeAll, run_bind, run_judge h, ih, run_pure, List.map_cons]

theorem run_validate_of_error {fault : Store.Fault} (h : w.resolve schema = (.error fault, w'))
    (documents : Documents) :
    (w.tree.run (validate w.store schema (pure input) documents)).1 =
      ⟨[.complaint fault.message], 1⟩ := by
  rw [validate, run_bind, World.run_eq h]
  rfl

theorem run_validate_of_ok (h : w.resolve schema = (.ok entry, w')) (documents : Documents) :
    (w.tree.run (validate w.store schema (pure input) documents)).1 =
      match collect (documents.sources w'.tree input) with
      | .error fault => ⟨[fatal fault], 1⟩
      | .ok documents => .ofMessages (w'.tree.run (judgeAll w'.store schema documents)).1 := by
  simp only [validate, run_bind, World.run_eq h, run_readDocuments]
  cases collect (documents.sources w'.tree input) <;> rfl

section Alone

variable (h : (w.resolve schema).1 = .ok entry)
include h

theorem run_validate_of_fault {documents : Documents} {readable : List Document} {name : String}
    {fault : Files.Fault} {after : List Source}
    (hsources : documents.sources (w.resolve schema).2.tree input =
      readable.map Document.source ++ (name, .error fault) :: after) :
    (w.tree.run (validate w.store schema (pure input) documents)).1 = ⟨[fatal fault], 1⟩ := by
  rw [run_validate_of_ok (Prod.ext h rfl), hsources, collect_fault]

variable (hstays : w.Stays schema)
include hstays

/-- The later resolutions give what the first one gave. -/
theorem run_validate_of_stays {documents : Documents} {readable : List Document}
    (hsources : documents.sources (w.resolve schema).2.tree input = readable.map Document.source) :
    (w.tree.run (validate w.store schema (pure input) documents)).1 =
      .ofMessages (readable.map (Document.message w.store.options entry.definition)) := by
  have hends := World.ends_resolve w schema
  rw [h] at hends
  obtain ⟨canonical, -, hsettles⟩ := hends.of_ok
  rw [run_validate_of_ok (Prod.ext h rfl), hsources, collect_sources]
  dsimp only
  rw [run_judgeAll (World.resolve_of_stays h hstays), hsettles.options]

theorem messages_alone {paths : List String} {readable : List Document}
    (hsources : (Documents.files paths).sources (w.resolve schema).2.tree input =
      readable.map Document.source) :
    readable.map (fun document => [document.message w.store.options entry.definition]) =
      paths.map fun path =>
        (w.tree.run (validate w.store schema (pure input) (.files [path]))).1.messages := by
  induction paths generalizing readable with
  | nil => rw [List.map_eq_nil_iff.mp hsources.symm]; rfl
  | cons path paths ih =>
    obtain ⟨document, rest, rfl, hdocument, hrest⟩ := List.map_eq_cons_iff.mp hsources.symm
    have halone : (Documents.files [path]).sources (w.resolve schema).2.tree input =
        [document].map Document.source := congrArg ([·]) hdocument.symm
    rw [List.map_cons, List.map_cons, ih hrest.symm, run_validate_of_stays h hstays halone]
    rfl

end Alone

/-- If the notation file is not resolved, only that is said, and if a document cannot be read, only
    that of the first such document. Otherwise every document is judged by the definition, and what
    is said of it is what would be said if it were the only one, given that the notation file stays
    as it is. -/
theorem report_validate (t : Tree) (schema : String) (directory : Option String) (trim : Bool)
    (input : Except Files.Fault String) (documents : Documents) :
    let w : World := ⟨t, .new directory { trim }⟩
    let sources := documents.sources (w.resolve schema).2.tree input
    let report := fun documents : Documents =>
      (t.run ((Command.validate schema directory trim documents).report (pure input))).1
    (∀ fault, (w.resolve schema).1 = .error fault →
        report documents = ⟨[.complaint fault.message], 1⟩) ∧
      ∀ entry, (w.resolve schema).1 = .ok entry →
        (∀ name fault, (name, .error fault) ∈ sources →
          ∃ (readable : List Document) (first : String) (cause : Files.Fault) (after : List Source),
            sources = readable.map Document.source ++ (first, .error cause) :: after ∧
              report documents = ⟨[fatal cause], 1⟩) ∧
        ∀ readable : List Document, sources = readable.map Document.source → w.Stays schema →
          (report documents).Judges { trim } entry.definition readable ∧
            ∀ paths, documents = .files paths → (report documents).messages.map ([·]) =
              paths.map fun path => (report (.files [path])).messages := by
  intro w sources report
  refine ⟨fun fault h => run_validate_of_error (w := w) (Prod.ext h rfl) documents, ?_⟩
  intro entry h
  constructor
  · intro name fault hfault
    obtain ⟨readable, first, cause, after, hsources⟩ := exists_fault hfault
    exact ⟨readable, first, cause, after, hsources, run_validate_of_fault (w := w) h hsources⟩
  · intro readable hsources hstays
    have hrun : report documents =
        .ofMessages (readable.map (Document.message { trim } entry.definition)) :=
      run_validate_of_stays h hstays hsources
    constructor
    · rw [hrun]
      exact judges_ofMessages { trim } entry.definition readable
    · rintro paths rfl
      rw [hrun]
      exact List.map_map.trans (messages_alone h hstays hsources)

/-! ## Three documents

The first one is no JSON, the second one is no whole number, and the third one is accepted.
-/

namespace Sample

open Store.Sample

def desk : Tree :=
  ⟨[([], .directory 0), (["c"], .directory 0), (["s"], .file "int".toUTF8 1),
    (["b"], .file "[".toUTF8 1), (["t"], .file "true".toUTF8 1), (["a"], .file "1".toUTF8 1)], [], 2⟩

def documents : List Document :=
  [⟨Text.quoted "/b", "["⟩, ⟨Text.quoted "/t", "true"⟩, ⟨Text.quoted "/a", "1"⟩]

theorem node?_cache : desk.node? ["c", cache] = none := rfl

theorem stays : World.Stays ⟨desk, world.store⟩ "/s" := by
  refine World.stays_of_apart (fun q hq => ?_) (canonical_schema desk rfl) (find_schema desk rfl)
    fun t hsame hlocate => ?_
  · obtain rfl := List.prefix_nil.mp hq
    rfl
  · have hcache : desk.locate true ("/c/" ++ cache) = .ok ["c", cache] :=
      locate_cache desk true rfl (by simp [node?_cache])
    rw [cachePath_schema] at hlocate
    exact absurd (locate_unique hsame hcache hlocate) (by simp)

theorem readText_top {path text : String} (name : String) {m : Instant}
    (hpath : segmentsOf path = ["", name]) (hchecked : checked ["", name] = .ok ["", name])
    (hsize : name.utf8ByteSize = 1) (hpoint : name ≠ ".")
    (h : t.node? [name] = some (.file text.toUTF8 m)) : t.readText path = .ok text :=
  readText_eq_ok.mpr ⟨_, _, _, find_top t hpath hchecked hsize hpoint h, fromUTF8?_toUTF8 text⟩

theorem sources_desk : (Documents.files ["/b", "/t", "/a"]).sources
    (World.resolve ⟨desk, world.store⟩ "/s").2.tree (.ok "") =
      documents.map Document.source := by
  rw [resolve_tree_eq desk rfl rfl node?_cache]
  simp only [Documents.sources, List.map_cons, List.map_nil]
  rw [readText_top "b" (by decide +kernel) rfl (by decide +kernel) (by decide) rfl,
    readText_top "t" (by decide +kernel) rfl (by decide +kernel) (by decide) rfl,
    readText_top "a" (by decide +kernel) rfl (by decide +kernel) (by decide) rfl]
  rfl

end Sample

theorem report_validate_mixed :
    let report := fun paths => (Sample.desk.run
      ((Command.validate "/s" (some "/c") false (.files paths)).report (pure (.ok "")))).1
    (report ["/b", "/t", "/a"]).output = "Validation of \"/a\" is successful\n" ∧
      (report ["/b", "/t", "/a"]).errors =
        "Validation of \"/b\" failed: error parsing JSON: EOF while parsing a list at line 1 column 1\n"
          ++ "Validation of \"/t\" failed: value at / does not satisfy int\n" ∧
      (report ["/b", "/t", "/a"]).code = 1 ∧
      (report ["/b", "/t", "/a"]).messages.map ([·]) =
        [(report ["/b"]).messages, (report ["/t"]).messages, (report ["/a"]).messages] := by
  intro report
  have hreport := report_validate Sample.desk "/s" (some "/c") false (.ok "")
    (.files ["/b", "/t", "/a"])
  have hresolve := Store.Sample.resolve_tree_eq Sample.desk rfl rfl Sample.node?_cache
  obtain ⟨-, hjudged⟩ := hreport.2 _ (congrArg Prod.fst hresolve)
  obtain ⟨hjudges, halone⟩ := hjudged Sample.documents Sample.sources_desk Sample.stays
  have hcode : (report ["/b", "/t", "/a"]).code ≠ 0 := by
    intro hzero
    have haccepted := hjudges.code_eq_zero.mp hzero _ (List.mem_cons_self ..)
    exact absurd (Document.reason?_eq_none.mpr haccepted) (by decide +kernel)
  refine ⟨hjudges.output.trans ?_, hjudges.errors.trans ?_, ?_, halone _ rfl⟩
  · decide +kernel
  · decide +kernel
  · exact Nat.le_antisymm hjudges.code_le (Nat.pos_of_ne_zero hcode)

end CommandLine

end CompactSchema
