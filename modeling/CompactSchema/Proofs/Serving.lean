import CompactSchema.Definition.Equality
import CompactSchema.Proofs.Caching
import CompactSchema.Proofs.Growth
import CompactSchema.Proofs.Storable

set_option autoImplicit false

/-!
# Cache files that are served

What a store writes into its directory, a later store reads: the definition of a notation file that
was compiled once is read from its cache file, as long as neither file changes and the definition
can be stored at all.
-/

namespace CompactSchema.Store

open Files Files.Tree

theorem decoded?_toUTF8 (text : String) : decoded? text.toUTF8 = Definition.deserialize? text := by
  rw [decoded?, fromUTF8?_toUTF8]
  rfl

/-- A cache file that is not older is read as far as it can be. -/
theorem readCache_of_find {t : Tree} {cache : String} {p : Names} {bytes : ByteArray}
    {since m : Instant} (hfind : t.find cache = .ok (p, .file bytes since)) (hm : m ≤ since)
    {text : String} (htext : String.fromUTF8? bytes = some text) :
    t.run (readCache cache m) = (Definition.deserialize? text, t) := by
  have hread : t.readText cache = .ok text := readText_eq_ok.mpr ⟨p, bytes, since, hfind, htext⟩
  simp only [readCache, run_bind, run_modified, modified_of_find hfind, run_read, hread,
    if_neg (Int.not_lt.mpr hm)]
  rfl

namespace World

variable {l : Layout} {w : World} {path : String} {p : Names} {m : Instant} {d : Definition}

/-- The path leads to a notation file that is read as `d`, of which no copy counts. -/
structure Compiles (l : Layout) (w : World) (path : String) (p : Names) (m : Instant)
    (d : Definition) : Prop where
  schema : l.schemas p
  directory : w.store.directory = l.directory
  straight : w.tree.Straight p
  writable : l.Writable w.tree
  canonical : w.tree.canonical path = .ok p.text
  modified : w.tree.modified p.text = .ok m
  read : ∃ text, w.tree.readText p.text = .ok text ∧ Definition.ofText text = .ok d
  memory : w.store.current? p.text m = none
  cache : (w.tree.run (readCache (l.cachePath p) m)).1 = none

/-- What is compiled is written to the cache file and kept in memory, and nothing else changes. -/
theorem Compiles.resolve_eq (h : Compiles l w path p m d) : ∃ tree since,
    w.resolve path =
      (.ok (w.store.remember p.text m d).1, ⟨tree, (w.store.remember p.text m d).2⟩) ∧
    Grows w.tree tree ∧ Edits (· = l.cacheFile p) w.tree tree ∧ w.tree.now ≤ since ∧
    tree.find (l.cachePath p) = .ok (l.cacheFile p, .file d.serialize.toUTF8 since) := by
  obtain ⟨made, hmade, hfiles⟩ := h.writable
  obtain ⟨hlocate, hdirectory, hlink⟩ := hfiles p h.schema
  obtain ⟨tree, hwrite, hedits, hkept⟩ :=
    writeBytes_of_locate hlocate hlink hdirectory d.serialize.toUTF8
  have hdirs : Edits (· = l.cacheFile p) w.tree made := by
    have hmakeDirs : Edits (· = l.cacheFile p) w.tree (w.tree.makeDirs l.directory).2 :=
      edits_makeDirs l.directory w.tree
    rwa [hmade] at hmakeDirs
  have hmakes : Grows w.tree made := by
    have hmakeDirs := grows_makeDirs l.directory w.tree
    rwa [hmade] at hmakeDirs
  have hwrites : Grows made tree := grows_writeBytes hlocate hlink hwrite
  have hpath : w.store.cachePath p.text = l.cachePath p := Layout.cachePath_eq h.directory p
  have hmiss : w.tree.run (readCache (w.store.cachePath p.text) m) = (none, w.tree) := by
    obtain ⟨d?, hrun, -⟩ := run_readCache w.tree (l.cachePath p) m
    have hnone := h.cache
    rw [hrun] at hnone
    rw [hpath, hrun, show d? = none from hnone]
  obtain ⟨text, htext, hd⟩ := h.read
  refine ⟨tree, made.now, ?_, hmakes.trans hwrites, hdirs.trans hedits, hmakes.now_le, ?_⟩
  · exact resolve_of_miss h.canonical h.modified h.memory hmiss htext hd (h.directory ▸ hmade)
      (hpath ▸ hwrite)
  · exact find_eq_ok.mpr ⟨hwrites.locate_eq hlocate, file?_eq_some.mp hkept⟩

theorem Compiles.find_schema (hl : l.Apart) (h : Compiles l w path p m d) :
    ∃ bytes, w.tree.find p.text = .ok (p, .file bytes m) := by
  obtain ⟨text, htext, -⟩ := h.read
  obtain ⟨q, bytes, n, hfind, -⟩ := readText_eq_ok.mp htext
  obtain rfl := locate_text (hl.plain p h.schema) h.straight (find_eq_ok.mp hfind).1
  obtain rfl := Except.ok.inj ((modified_of_find hfind).symm.trans h.modified)
  exact ⟨bytes, hfind⟩

/-- A store with nothing in memory takes what is in the cache file, and changes no file. -/
theorem resolve_of_cache {s : Store} {tree : Tree} {schema : String} (hentries : s.entries = [])
    (hpath : tree.canonical path = .ok schema) (hm : tree.modified schema = .ok m)
    (hcache : tree.run (readCache (s.cachePath schema) m) = (some d, tree)) :
    World.resolve ⟨tree, s⟩ path =
      (.ok (s.remember schema m d).1, ⟨tree, (s.remember schema m d).2⟩) := by
  have hmemory : s.current? schema m = none := by simp [current?, entry?, hentries]
  unfold World.resolve
  simp only [run_resolve, hpath, hm, hmemory, run_load, hcache]

/-- What is compiled is written to the cache file. Exactly if a definition can be stored, and the
    notation file is not dated later than the cache file, every later store reads it back from there
    and changes no file. -/
theorem resolve_again (hl : l.Apart) (h : Compiles l w path p m d) : ∃ tree since,
    w.resolve path =
      (.ok (w.store.remember p.text m d).1, ⟨tree, (w.store.remember p.text m d).2⟩) ∧
    w.tree.now ≤ since ∧ tree.file? (l.cacheFile p) = some (d.serialize.toUTF8, since) ∧
    (decoded? d.serialize.toUTF8 = some d ↔ d.Storable) ∧
    (m ≤ since → ∀ directory options, (Store.new directory options).directory = l.directory →
      let s := Store.new directory options
      (tree.run (readCache (s.cachePath p.text) m) = (some d, tree) ↔ d.Storable) ∧
        (d.Storable → World.resolve ⟨tree, s⟩ path =
          (.ok (s.remember p.text m d).1, ⟨tree, (s.remember p.text m d).2⟩))) := by
  obtain ⟨tree, since, hresolve, hgrows, hedits, hnow, hcache⟩ := h.resolve_eq
  refine ⟨tree, since, hresolve, hnow, file?_eq_some.mpr (find_eq_ok.mp hcache).2,
    decoded?_toUTF8 d.serialize ▸ d.deserialize?_serialize_iff,
    fun hm directory options hdirectory => ?_⟩
  intro s
  have hpath : s.cachePath p.text = l.cachePath p := Layout.cachePath_eq hdirectory p
  have hread : tree.run (readCache (s.cachePath p.text) m) =
      (Definition.deserialize? d.serialize, tree) :=
    hpath ▸ readCache_of_find hcache hm (fromUTF8?_toUTF8 d.serialize)
  have hserved : tree.run (readCache (s.cachePath p.text) m) = (some d, tree) ↔ d.Storable := by
    rw [hread, Prod.mk.injEq, ← Definition.deserialize?_serialize_iff]
    exact and_iff_left rfl
  refine ⟨hserved, fun hstorable => ?_⟩
  -- The notation file is no cache file, so it is still there as it was.
  obtain ⟨bytes, hfind⟩ := h.find_schema hl
  have hschema := hgrows.find_file (hedits.file p (hl.cacheFile p p h.schema h.schema)) hfind
  exact resolve_of_cache rfl (hgrows.canonical_eq h.canonical) (modified_of_find hschema)
    (hserved.mpr hstorable)

end World

/-- A range with a decimal bound is read from the cache file by a second store. -/
theorem World.resolve_again_decimal :
    let d : Definition := .range ⟨.double, some (.float ⟨0x3fe0000000000000⟩), none⟩
    let w : World := ⟨⟨[([], .directory 0), (["c"], .directory 0), (["s"], .file d.text.toUTF8 1)],
      [], 2⟩, Store.new (some "/c") {}⟩
    let s := Store.new (some "/c") {}
    w.Compiles Sample.layout "/s" ["s"] 1 d ∧ d.Storable ∧ ∃ tree,
      w.resolve "/s" = (.ok (w.store.remember "/s" 1 d).1, ⟨tree, (w.store.remember "/s" 1 d).2⟩) ∧
      resolve ⟨tree, s⟩ "/s" = (.ok (s.remember "/s" 1 d).1, ⟨tree, (s.remember "/s" 1 d).2⟩) := by
  intro d w s
  have hnode : w.tree.node? ["s"] = some (.file d.text.toUTF8 1) := rfl
  have hdirectory : w.tree.node? ["c"] = some (.directory 0) := rfl
  have hnone : w.tree.node? ["c", Sample.cache] = none := rfl
  have hlink : ∀ target, w.tree.node? ["c", Sample.cache] ≠ some (.link target) := by
    simp [hnone]
  have hwell : Definition.WellFormed PatternLiteral.compiles Binary64.isFinite d := by
    refine .range ⟨rfl, .inl (by simp), ?_, fun b hb => absurd hb (by simp)⟩
    rintro b ⟨⟩
    exact ⟨rfl, by decide⟩
  have htext : Definition.ofText d.text = .ok d :=
    Definition.Parser.bind_eq_ok.mpr
      ⟨_, Definition.stripComments_text hwell, Definition.ofBareText_text hwell⟩
  have hstorable : d.Storable := by
    refine ⟨fun b hb => ?_, by decide⟩
    obtain rfl : b = .float ⟨0x3fe0000000000000⟩ := by simpa [d, Definition.bounds] using hb
    exact Bound.reread?_float rfl (by decide +kernel)
  have hmiss := Sample.modified_cache w.tree hnone
    (Sample.locate_cache w.tree false hdirectory hlink)
  have hcompiles : w.Compiles Sample.layout "/s" ["s"] 1 d :=
    { schema := rfl
      directory := rfl
      straight := Sample.straight w.tree rfl hnode
      writable := Sample.writable w.tree hdirectory rfl hlink
      canonical := Sample.schema_text ▸ Sample.canonical_schema w.tree hnode
      modified := Sample.schema_text ▸ modified_of_find (Sample.find_schema w.tree hnode)
      read := ⟨d.text, Sample.schema_text ▸ Sample.readText_schema w.tree hnode, htext⟩
      memory := rfl
      cache := by rw [Sample.cachePath_eq, readCache_of_missing hmiss 1] }
  obtain ⟨tree, since, hresolve, hnow, -, -, hagain⟩ := resolve_again Sample.apart hcompiles
  have hsince : (1 : Instant) ≤ since := Int.le_trans (by decide) hnow
  obtain ⟨-, hserved⟩ := hagain hsince (some "/c") {} rfl
  rw [Sample.schema_text] at hresolve hserved
  exact ⟨hcompiles, hstorable, tree, hresolve, hserved hstorable⟩

/-- Neither condition can be left out: a decimal that is read as its neighbour is served, and
    objects that are nested too deeply are read from the notation file every time. -/
theorem not_restored :
    (∃ d e, Definition.ofText "double<0.000009999999999999999>" = .ok d ∧
      decoded? d.serialize.toUTF8 = some e ∧ e.equal d = false) ∧
    Definition.ofText (Definition.nested 32).text = .ok (Definition.nested 32) ∧
      decoded? (Definition.nested 32).serialize.toUTF8 = none := by
  have hcompared : (Definition.ofText "double<0.000009999999999999999>").toOption.bind
      (fun d => (decoded? d.serialize.toUTF8).map (·.equal d)) = some false := by
    decide +kernel
  have hdeep : Definition.deserialize? (Definition.nested 32).serialize = none := by
    refine Definition.deserialize?_of_deep ?_
    rw [Definition.depth_nested]
    decide
  refine ⟨?_, Definition.ofText_nested 32, (decoded?_toUTF8 _).trans hdeep⟩
  simp only [Option.bind_eq_some_iff, Option.map_eq_some_iff] at hcompared
  obtain ⟨d, hd, e, he, hequal⟩ := hcompared
  exact ⟨d, e, toOption_eq_some.mp hd, he, hequal⟩

end CompactSchema.Store
