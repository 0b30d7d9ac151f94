import CompactSchema.Proofs.Resolving
import CompactSchema.Proofs.Serialization
import Mathlib.Logic.Relation

set_option autoImplicit false

/-!
# Stores do not serve outdated definitions

A run writes, touches and removes notation files, spoils cache files, and resolves paths through a
store that may be replaced by a new one. What is kept of a notation file is kept in memory and in
its cache file. Both copies are faithful as far as they count: a copy in memory when its instant is
that of the notation file, a cache file when it is not older. Every step keeps this.
-/

namespace CompactSchema.Store

open Files Files.Tree

theorem entry?_remember_self (s : Store) (schema : String) (m : Instant) (d : Definition) :
    entry? (s.remember schema m d).2 schema = some ⟨m, d, s.loads⟩ := by
  simp [remember, entry?]

theorem entry?_remember_of_ne (s : Store) {schema other : String} (m : Instant) (d : Definition)
    (h : other ≠ schema) : entry? (s.remember schema m d).2 other = s.entry? other := by
  have hkept := lookup_filter (fun key => decide (key ≠ schema)) (q := other) (by simpa using h)
    s.entries
  have hother : (other == schema) = false := by simpa using h
  simpa [remember, entry?, List.lookup_cons, hother] using hkept

theorem fromUTF8?_toUTF8 (text : String) : String.fromUTF8? text.toUTF8 = some text :=
  dif_pos text.isValidUTF8

/-- What the bytes of a notation file are read as, if they are text. -/
def parsed? (bytes : ByteArray) : Option (Except SyntaxError Definition) :=
  (String.fromUTF8? bytes).map Definition.ofText

/-- The directory of a store, the names that it leads to, and the names of the notation files. -/
structure Layout where
  directory : String
  home : Names
  schemas : Names → Prop

namespace Layout

variable (l : Layout)

def cacheName (p : Names) : String := Digest.ofText p.text ++ ".json"

def cachePath (p : Names) : String := Files.join l.directory (cacheName p)

def cacheFile (p : Names) : Names := l.home ++ [cacheName p]

variable {l} in
theorem cachePath_eq {s : Store} (h : s.directory = l.directory) (p : Names) :
    s.cachePath p.text = l.cachePath p := by
  rw [Store.cachePath, Layout.cachePath, h, cacheName]

/-- Every notation file has a cache file of its own, which is no notation file. -/
structure Apart : Prop where
  plain : ∀ p, l.schemas p → p.Plain
  digest : ∀ p q, l.schemas p → l.schemas q → Digest.ofText p.text = Digest.ofText q.text → p = q
  cacheFile : ∀ p q, l.schemas p → l.schemas q → p ≠ l.cacheFile q

/-- Cache paths lead to cache files, if anywhere, and those are not links. -/
structure Leads (t : Tree) : Prop where
  locate : ∀ p, l.schemas p → ∀ made q, t.locate made (l.cachePath p) = .ok q → q = l.cacheFile p
  link : ∀ p, l.schemas p → ∀ target, t.node? (l.cacheFile p) ≠ some (.link target)

/-- The directory can be made, and in it the cache files can be written. -/
def Writable (t : Tree) : Prop :=
  ∃ t', t.makeDirs l.directory = (.ok (), t') ∧ ∀ p, l.schemas p →
    t'.locate true (l.cachePath p) = .ok (l.cacheFile p) ∧
      t'.isDirectory (l.cacheFile p) = false ∧
        ∀ target, t'.node? (l.cacheFile p) ≠ some (.link target)

/-- The decimal bounds in the notation files are read back as they are written. -/
def ReadsBack (t : Tree) : Prop :=
  ∀ p bytes m d, l.schemas p → t.file? p = some (bytes, m) → parsed? bytes = some (.ok d) →
    ∀ b ∈ d.bounds, b.ReadsBack

variable {l} {t t' : Tree} {p q : Names}

theorem Apart.cacheFile_inj (h : l.Apart) (hp : l.schemas p) (hq : l.schemas q)
    (heq : l.cacheFile p = l.cacheFile q) : p = q := by
  have hname : cacheName p = cacheName q := by simpa [Layout.cacheFile] using heq
  exact h.digest p q hp hq (by simpa [cacheName] using hname)

theorem Writable.leads (h : l.Writable t) (hlinks : SameLinks t t') : l.Leads t' := by
  obtain ⟨made, hmade, hcache⟩ := h
  have hedits : EditsNone t made := by
    have hdirs : EditsNone t (t.makeDirs l.directory).2 := edits_makeDirs l.directory t
    rwa [hmade] at hdirs
  have hsame : SameLinks made t' := hedits.toSameLinks.symm.trans hlinks
  refine ⟨fun p hp flag q hq => ?_, fun p hp target htarget => ?_⟩
  · exact locate_unique hsame (hcache p hp).1 hq
  · exact (hcache p hp).2.2 target ((hsame.link _ _).mp htarget)

end Layout

/-- A tree of files and the store that is in use. -/
structure World where
  tree : Tree
  store : Store

namespace World

def resolve (w : World) (path : String) : Except Fault Entry × World :=
  match w.tree.run (w.store.resolve path) with
  | ((result, store), tree) => (result, ⟨tree, store⟩)

def check (w : World) (path : String) (document : Json) : Except Fault Unit × World :=
  match w.tree.run (w.store.check path document) with
  | ((result, store), tree) => (result, ⟨tree, store⟩)

variable (l : Layout)

/-- What is at the path, if anything, is one of the notation files. -/
def Within (w : World) (path : String) : Prop :=
  ∀ schema, w.tree.canonical path = .ok schema → ∃ p, l.schemas p ∧ schema = p.text

/-- What happens at once in a run. -/
inductive Step : World → World → Prop
  /-- A notation file is written, touched or removed. If it is there afterwards then it is later
      than its cache file, and not of the instant that is in memory. -/
  | edit {w : World} {tree : Tree} {p : Names} (hp : l.schemas p)
      (hedits : Edits (· = p) w.tree tree) (hreads : l.ReadsBack tree)
      (hcache : ∀ bytes m kept since, tree.file? p = some (bytes, m) →
        w.tree.file? (l.cacheFile p) = some (kept, since) → since < m)
      (hmemory : ∀ bytes m entry, tree.file? p = some (bytes, m) →
        w.store.entry? p.text = some entry → entry.modified ≠ m) :
      Step w ⟨tree, w.store⟩
  /-- A cache file is removed, or overwritten with bytes that are no definition. -/
  | spoil {w : World} {tree : Tree} {p : Names} (hp : l.schemas p)
      (hedits : Edits (· = l.cacheFile p) w.tree tree)
      (hcache : ∀ bytes m, tree.file? (l.cacheFile p) = some (bytes, m) → decoded? bytes = none) :
      Step w ⟨tree, w.store⟩
  | resolve {w : World} {path : String} (hpath : w.Within l path) : Step w (w.resolve path).2
  | check {w : World} {path : String} (document : Json) (hpath : w.Within l path) :
      Step w (w.check path document).2
  /-- A new store takes the place of the one in use. -/
  | renew {w : World} (directory : Option String) (options : Options)
      (hdirectory : (Store.new directory options).directory = l.directory) :
      Step w ⟨w.tree, Store.new directory options⟩
  /-- The clock is set. -/
  | setClock {w : World} (now : Instant) : Step w ⟨{ w.tree with now }, w.store⟩

/-- Where a run begins: nothing is in memory, and no cache file holds a definition. -/
structure Initial (w : World) : Prop where
  directory : w.store.directory = l.directory
  entries : w.store.entries = []
  straight : ∀ p, l.schemas p → w.tree.Straight p
  writable : l.Writable w.tree
  reads : l.ReadsBack w.tree
  cache : ∀ p bytes m, l.schemas p → w.tree.file? (l.cacheFile p) = some (bytes, m) →
    decoded? bytes = none

/-- What is kept of a notation file is what it is read as, if it counts. -/
structure Faithful (w : World) : Prop where
  directory : w.store.directory = l.directory
  straight : ∀ p, l.schemas p → w.tree.Straight p
  links : ∃ t, l.Writable t ∧ SameLinks t w.tree
  reads : l.ReadsBack w.tree
  memory : ∀ p bytes entry, l.schemas p → w.store.entry? p.text = some entry →
    w.tree.file? p = some (bytes, entry.modified) → parsed? bytes = some (.ok entry.definition)
  cache : ∀ p bytes m kept since d, l.schemas p → w.tree.file? p = some (bytes, m) →
    w.tree.file? (l.cacheFile p) = some (kept, since) → m ≤ since → decoded? kept = some d →
      parsed? bytes = some (.ok d)

variable {l} {w : World} {tree : Tree} {p : Names}

theorem Faithful.leads (h : Faithful l w) (hlinks : SameLinks w.tree tree) : l.Leads tree := by
  obtain ⟨t, hwritable, hsame⟩ := h.links
  exact hwritable.leads (hsame.trans hlinks)

/-- The store stays as it is. Of what changed in the tree, the copies have to be looked at anew. -/
theorem faithful_of_edits {only : Names → Prop} (h : Faithful l w)
    (hedits : Edits only w.tree tree) (hreads : l.ReadsBack tree)
    (hmemory : ∀ p bytes entry, l.schemas p → only p → w.store.entry? p.text = some entry →
      tree.file? p = some (bytes, entry.modified) → parsed? bytes = some (.ok entry.definition))
    (hcache : ∀ p bytes m kept since d, l.schemas p → only p ∨ only (l.cacheFile p) →
      tree.file? p = some (bytes, m) → tree.file? (l.cacheFile p) = some (kept, since) → m ≤ since →
        decoded? kept = some d → parsed? bytes = some (.ok d)) :
    Faithful l ⟨tree, w.store⟩ where
  directory := h.directory
  straight p hp := (h.straight p hp).of_sameLinks hedits.toSameLinks
  links := by
    obtain ⟨t, hwritable, hsame⟩ := h.links
    exact ⟨t, hwritable, hsame.trans hedits.toSameLinks⟩
  reads := hreads
  memory p bytes entry hp hentry hbytes := by
    by_cases honly : only p
    · exact hmemory p bytes entry hp honly hentry hbytes
    · exact h.memory p bytes entry hp hentry (hedits.file p honly ▸ hbytes)
  cache p bytes m kept since d hp hbytes hkept hsince hd := by
    by_cases honly : only p ∨ only (l.cacheFile p)
    · exact hcache p bytes m kept since d hp honly hbytes hkept hsince hd
    · obtain ⟨hschema, hcacheFile⟩ := not_or.mp honly
      exact h.cache p bytes m kept since d hp (hedits.file p hschema ▸ hbytes)
        (hedits.file _ hcacheFile ▸ hkept) hsince hd

theorem readsBack_of_edits {only : Names → Prop} (h : l.ReadsBack w.tree)
    (hedits : Edits only w.tree tree) (honly : ∀ p, l.schemas p → ¬ only p) : l.ReadsBack tree :=
  fun p bytes m d hp hbytes => h p bytes m d hp (hedits.file p (honly p hp) ▸ hbytes)

theorem faithful_of_editsNone (h : Faithful l w) (hedits : EditsNone w.tree tree) :
    Faithful l ⟨tree, w.store⟩ :=
  faithful_of_edits h hedits (readsBack_of_edits h.reads hedits fun _ _ hp => hp)
    (fun _ _ _ _ hp => hp.elim) fun _ _ _ _ _ _ _ hp => (or_self_iff.mp hp).elim

theorem faithful_edit (hl : l.Apart) (h : Faithful l w) (hp : l.schemas p)
    (hedits : Edits (· = p) w.tree tree) (hreads : l.ReadsBack tree)
    (hcache : ∀ bytes m kept since, tree.file? p = some (bytes, m) →
      w.tree.file? (l.cacheFile p) = some (kept, since) → since < m)
    (hmemory : ∀ bytes m entry, tree.file? p = some (bytes, m) →
      w.store.entry? p.text = some entry → entry.modified ≠ m) :
    Faithful l ⟨tree, w.store⟩ := by
  -- Neither copy counts: the one in memory is of another instant, and the cache file is older.
  refine faithful_of_edits h hedits hreads ?_ ?_
  · rintro q bytes entry - rfl hentry hbytes
    exact absurd rfl (hmemory bytes _ entry hbytes hentry)
  · intro q bytes m kept since d hq honly hbytes hkept hsince hd
    have hcacheFile : l.cacheFile q ≠ p := (hl.cacheFile p q hp hq).symm
    obtain rfl : q = p := honly.resolve_right hcacheFile
    have hearlier := hcache bytes m kept since hbytes (hedits.file _ hcacheFile ▸ hkept)
    exact absurd hsince (Int.not_le.mpr hearlier)

/-- The cache file changes, and holds nothing but the definition of its notation file if it is not
    older. -/
theorem faithful_cacheFile (hl : l.Apart) (h : Faithful l w) (hp : l.schemas p)
    (hedits : Edits (· = l.cacheFile p) w.tree tree)
    (hcache : ∀ bytes m kept since d, tree.file? p = some (bytes, m) →
      tree.file? (l.cacheFile p) = some (kept, since) → m ≤ since → decoded? kept = some d →
        parsed? bytes = some (.ok d)) :
    Faithful l ⟨tree, w.store⟩ := by
  have hother : ∀ q, l.schemas q → q ≠ l.cacheFile p := fun q hq => hl.cacheFile q p hq hp
  refine faithful_of_edits h hedits (readsBack_of_edits h.reads hedits hother) ?_ ?_
  · intro q bytes entry hq honly
    exact absurd honly (hother q hq)
  · intro q bytes m kept since d hq honly hbytes hkept hsince hd
    obtain rfl : q = p := hl.cacheFile_inj hq hp (honly.resolve_left (hother q hq))
    exact hcache bytes m kept since d hbytes hkept hsince hd

theorem faithful_remember (hl : l.Apart) (h : Faithful l w) (hp : l.schemas p) {m : Instant}
    {d : Definition}
    (hd : ∀ bytes, w.tree.file? p = some (bytes, m) → parsed? bytes = some (.ok d)) :
    Faithful l ⟨w.tree, (w.store.remember p.text m d).2⟩ where
  directory := h.directory
  straight := h.straight
  links := h.links
  reads := h.reads
  cache := h.cache
  memory q bytes entry hq hentry hbytes := by
    by_cases hqp : q = p
    · subst hqp
      rw [entry?_remember_self] at hentry
      obtain rfl := Option.some.inj hentry
      exact hd bytes hbytes
    · have htext : q.text ≠ p.text := fun heq => hqp (hl.digest q p hq hp (by rw [heq]))
      rw [entry?_remember_of_ne _ _ _ htext] at hentry
      exact h.memory q bytes entry hq hentry hbytes

/-- The names of a notation file are found at their text, or nothing is. -/
theorem find_text (hl : l.Apart) (h : Faithful l w) (hp : l.schemas p) {q : Names} {node : Node}
    (hfind : w.tree.find p.text = .ok (q, node)) : q = p ∧ w.tree.node? p = some node := by
  obtain ⟨hlocate, hnode⟩ := find_eq_ok.mp hfind
  obtain rfl := locate_text (hl.plain p hp) (h.straight p hp) hlocate
  exact ⟨rfl, hnode⟩

theorem file?_of_readText (hl : l.Apart) (h : Faithful l w) (hp : l.schemas p) {text : String}
    (htext : w.tree.readText p.text = .ok text) :
    ∃ bytes m, w.tree.file? p = some (bytes, m) ∧ w.tree.modified p.text = .ok m ∧
      parsed? bytes = some (Definition.ofText text) := by
  obtain ⟨q, bytes, m, hfind, hbytes⟩ := readText_eq_ok.mp htext
  obtain ⟨rfl, hnode⟩ := find_text hl h hp hfind
  exact ⟨bytes, m, file?_eq_some.mpr hnode, modified_of_find hfind, by simp [parsed?, hbytes]⟩

/-- What is read from a cache file counts for the notation file. -/
theorem parsed?_of_readCache (h : Faithful l w) (hp : l.schemas p) {m : Instant}
    {d : Definition}
    (hd : (w.tree.run (readCache (w.store.cachePath p.text) m)).1 = some d) {bytes : ByteArray}
    (hbytes : w.tree.file? p = some (bytes, m)) : parsed? bytes = some (.ok d) := by
  obtain ⟨d?, hrun, hcache⟩ := run_readCache w.tree (w.store.cachePath p.text) m
  rw [hrun] at hd
  obtain ⟨q, kept, since, hlocate, hkept, hsince, hdecoded⟩ := hcache d hd
  rw [Layout.cachePath_eq h.directory p] at hlocate
  obtain rfl := (h.leads (.refl w.tree)).locate p hp false q hlocate
  exact h.cache p bytes m kept since d hp hbytes hkept hsince hdecoded

theorem decoded?_serialize {d e : Definition} (hbounds : ∀ b ∈ d.bounds, b.ReadsBack)
    (h : decoded? d.serialize.toUTF8 = some e) : e = d := by
  rw [decoded?, fromUTF8?_toUTF8] at h
  exact Definition.eq_of_deserialize? hbounds h

theorem faithful_writeText (hl : l.Apart) (h : Faithful l w) (hp : l.schemas p) {d : Definition}
    (hd : ∀ bytes m, w.tree.file? p = some (bytes, m) → parsed? bytes = some (.ok d))
    (hwrite : w.tree.writeText (l.cachePath p) d.serialize = .ok tree) :
    Faithful l ⟨tree, w.store⟩ ∧ Edits (· = l.cacheFile p) w.tree tree := by
  have hleads := h.leads (.refl w.tree)
  cases hlocate : w.tree.locate true (l.cachePath p) with
  | error fault =>
    exact absurd hwrite (by simp [writeText, writeBytes, hlocate, bind, Except.bind])
  | ok q =>
    obtain rfl := hleads.locate p hp true q hlocate
    obtain ⟨hedits, hkept⟩ := edits_writeBytes hlocate (hleads.link p hp) hwrite
    refine ⟨faithful_cacheFile hl h hp hedits fun bytes m kept since e hbytes hfile _ he => ?_,
      hedits⟩
    -- The notation file is no cache file, so that what was compiled still stands there.
    obtain ⟨rfl, -⟩ := Prod.mk.inj (Option.some.inj (hkept.symm.trans hfile))
    have hschema := hedits.file p (hl.cacheFile p p hp hp) ▸ hbytes
    rw [decoded?_serialize (h.reads p bytes m d hp hschema (hd bytes m hschema)) he]
    exact hd bytes m hschema

theorem faithful_writeCache (hl : l.Apart) (h : Faithful l w) (hp : l.schemas p) {d : Definition}
    (hd : ∀ bytes m, w.tree.file? p = some (bytes, m) → parsed? bytes = some (.ok d))
    {result : Except Fault Unit}
    (hrun : w.tree.run (w.store.writeCache p.text d) = (result, tree)) :
    Faithful l ⟨tree, w.store⟩ ∧ Edits (· = l.cacheFile p) w.tree tree := by
  have hdirs : EditsNone w.tree (w.tree.makeDirs w.store.directory).2 :=
    edits_makeDirs w.store.directory w.tree
  have hdirs' : Edits (· = l.cacheFile p) w.tree (w.tree.makeDirs w.store.directory).2 :=
    edits_makeDirs w.store.directory w.tree
  have hmade := faithful_of_editsNone h hdirs
  rw [run_writeCache, Layout.cachePath_eq h.directory p] at hrun
  generalize w.tree.makeDirs w.store.directory = change at hdirs hdirs' hmade hrun
  obtain ⟨made?, made⟩ := change
  cases made? with
  | error fault =>
    obtain ⟨-, rfl⟩ := Prod.mk.inj hrun
    exact ⟨hmade, hdirs'⟩
  | ok =>
    dsimp only at hrun
    cases hwrite : made.writeText (l.cachePath p) d.serialize with
    | error fault =>
      rw [hwrite] at hrun
      obtain ⟨-, rfl⟩ := Prod.mk.inj hrun
      exact ⟨hmade, hdirs'⟩
    | ok written =>
      rw [hwrite] at hrun
      obtain ⟨-, rfl⟩ := Prod.mk.inj hrun
      obtain ⟨hfaithful, hedits⟩ := faithful_writeText hl hmade hp
        (fun bytes m hbytes => hd bytes m (hdirs.file p (fun hp => hp) ▸ hbytes)) hwrite
      exact ⟨hfaithful, hdirs'.trans hedits⟩

theorem faithful_compile (hl : l.Apart) (h : Faithful l w) (hp : l.schemas p)
    {result : Except Fault Definition}
    (hrun : w.tree.run (w.store.compile p.text) = (result, tree)) :
    Faithful l ⟨tree, w.store⟩ ∧ Edits (· = l.cacheFile p) w.tree tree ∧
      ∀ d, result = .ok d → ∀ bytes m, w.tree.file? p = some (bytes, m) →
        parsed? bytes = some (.ok d) := by
  rw [run_compile] at hrun
  cases htext : w.tree.readText p.text with
  | error fault =>
    rw [htext] at hrun
    obtain ⟨rfl, rfl⟩ := Prod.mk.inj hrun
    exact ⟨h, .refl _ _, by simp⟩
  | ok text =>
    rw [htext] at hrun
    dsimp only at hrun
    obtain ⟨bytes, m, hbytes, -, hparsed⟩ := file?_of_readText hl h hp htext
    cases hd : Definition.ofText text with
    | error fault =>
      rw [hd] at hrun
      obtain ⟨rfl, rfl⟩ := Prod.mk.inj hrun
      exact ⟨h, .refl _ _, by simp⟩
    | ok d =>
      rw [hd] at hrun hparsed
      dsimp only at hrun
      have hcurrent : ∀ bytes m, w.tree.file? p = some (bytes, m) →
          parsed? bytes = some (.ok d) := by
        intro other n hother
        obtain ⟨rfl, -⟩ := Prod.mk.inj (Option.some.inj (hbytes.symm.trans hother))
        exact hparsed
      generalize hwrite : w.tree.run (w.store.writeCache p.text d) = outcome at hrun
      obtain ⟨written?, written⟩ := outcome
      obtain ⟨hfaithful, hedits⟩ := faithful_writeCache hl h hp hcurrent hwrite
      cases written? with
      | error fault =>
        obtain ⟨rfl, rfl⟩ := Prod.mk.inj hrun
        exact ⟨hfaithful, hedits, by simp⟩
      | ok =>
        obtain ⟨rfl, rfl⟩ := Prod.mk.inj hrun
        refine ⟨hfaithful, hedits, fun e he => ?_⟩
        obtain rfl := Except.ok.inj he
        exact hcurrent

theorem faithful_load (hl : l.Apart) (h : Faithful l w) (hp : l.schemas p) {m : Instant}
    {result : Except Fault Definition}
    (hrun : w.tree.run (w.store.load p.text m) = (result, tree)) :
    Faithful l ⟨tree, w.store⟩ ∧ Edits (· = l.cacheFile p) w.tree tree ∧
      ∀ d, result = .ok d → ∀ bytes, w.tree.file? p = some (bytes, m) →
        parsed? bytes = some (.ok d) := by
  rw [run_load] at hrun
  obtain ⟨d?, hcache, -⟩ := run_readCache w.tree (w.store.cachePath p.text) m
  rw [hcache] at hrun
  cases d? with
  | some d =>
    obtain ⟨rfl, rfl⟩ := Prod.mk.inj hrun
    refine ⟨h, .refl _ _, fun e he bytes hbytes => ?_⟩
    obtain rfl := Except.ok.inj he
    exact parsed?_of_readCache h hp (by rw [hcache]) hbytes
  | none =>
    obtain ⟨hfaithful, hedits, hd⟩ := faithful_compile hl h hp hrun
    exact ⟨hfaithful, hedits, fun d he bytes hbytes => hd d he bytes m hbytes⟩

theorem faithful_resolve (hl : l.Apart) (h : Faithful l w) {path : String}
    (hpath : w.Within l path) : Faithful l (w.resolve path).2 := by
  unfold World.resolve
  rw [run_resolve]
  cases hschema : w.tree.canonical path with
  | error fault => exact h
  | ok schema =>
    obtain ⟨p, hp, rfl⟩ := hpath schema hschema
    dsimp only
    cases hm : w.tree.modified p.text with
    | error fault => exact h
    | ok m =>
      dsimp only
      cases w.store.current? p.text m with
      | some entry => exact h
      | none =>
        dsimp only
        generalize hload : w.tree.run (w.store.load p.text m) = outcome
        obtain ⟨result, tree⟩ := outcome
        obtain ⟨hfaithful, hedits, hd⟩ := faithful_load hl h hp hload
        cases result with
        | error fault => exact hfaithful
        | ok d =>
          exact faithful_remember hl hfaithful hp fun bytes hbytes =>
            hd d rfl bytes (hedits.file p (hl.cacheFile p p hp hp) ▸ hbytes)

/-- What comes of checking a document against a definition. -/
def verdict (o : Options) (d : Definition) (document : Json) : Except Fault Unit :=
  match d.reject? o document with
  | some rejection => .error (.rejected rejection)
  | none => .ok ()

theorem check_fst (w : World) (path : String) (document : Json) :
    (w.check path document).1 = (w.resolve path).1.bind fun entry =>
      verdict (w.resolve path).2.store.options entry.definition document := by
  unfold World.check World.resolve
  rw [run_check]
  generalize w.tree.run (w.store.resolve path) = outcome
  obtain ⟨⟨result, store⟩, tree⟩ := outcome
  cases result with
  | error fault => rfl
  | ok entry =>
    simp only [Except.bind, verdict]
    cases entry.definition.reject? store.options document <;> rfl

theorem check_snd (w : World) (path : String) (document : Json) :
    (w.check path document).2 = (w.resolve path).2 := by
  unfold World.check World.resolve
  rw [run_check]
  generalize w.tree.run (w.store.resolve path) = outcome
  obtain ⟨⟨result, store⟩, tree⟩ := outcome
  cases result with
  | error fault => rfl
  | ok entry =>
    dsimp only
    cases entry.definition.reject? store.options document <;> rfl

theorem faithful_initial (h : Initial l w) : Faithful l w where
  directory := h.directory
  straight := h.straight
  links := ⟨w.tree, h.writable, .refl w.tree⟩
  reads := h.reads
  memory p bytes entry hp hentry _ := absurd hentry (by simp [h.entries, entry?])
  cache p bytes m kept since d hp _ hkept _ hd :=
    absurd hd (by simp [h.cache p kept since hp hkept])

theorem faithful_step (hl : l.Apart) {w' : World} (h : Faithful l w) (hstep : Step l w w') :
    Faithful l w' := by
  cases hstep with
  | edit hp hedits hreads hcache hmemory => exact faithful_edit hl h hp hedits hreads hcache hmemory
  | spoil hp hedits hcache =>
    refine faithful_cacheFile hl h hp hedits fun bytes m kept since d _ hkept _ hd => ?_
    exact absurd hd (by simp [hcache kept since hkept])
  | resolve hpath => exact faithful_resolve hl h hpath
  | check document hpath =>
    rw [check_snd]
    exact faithful_resolve hl h hpath
  | renew directory options hdirectory =>
    exact ⟨hdirectory, h.straight, h.links, h.reads,
      fun _ _ _ _ hentry => absurd hentry (by simp [Store.new, entry?]), h.cache⟩
  | setClock now => exact faithful_of_editsNone h ⟨⟨rfl, fun _ _ => Iff.rfl⟩, fun _ _ => rfl⟩

theorem faithful_run (hl : l.Apart) {w₀ : World} (h : Initial l w₀)
    (hrun : Relation.ReflTransGen (Step l) w₀ w) : Faithful l w := by
  induction hrun with
  | refl => exact faithful_initial h
  | tail _ hstep ih => exact faithful_step hl ih hstep

theorem writeCache_ok (h : Faithful l w) (hwritable : l.Writable w.tree) (hp : l.schemas p)
    (d : Definition) : ∃ tree, w.tree.run (w.store.writeCache p.text d) = (.ok (), tree) := by
  obtain ⟨made, hmade, hcache⟩ := hwritable
  obtain ⟨hlocate, hdirectory, hlink⟩ := hcache p hp
  obtain ⟨tree, hwrite, -⟩ := writeBytes_of_locate hlocate hlink hdirectory d.serialize.toUTF8
  refine ⟨tree, ?_⟩
  rw [run_writeCache, Layout.cachePath_eq h.directory p, h.directory, hmade]
  simp only [writeText, hwrite]

/-- A definition that is not in memory is what the notation file is read as, whether it comes from
    its cache file or not. -/
theorem load_eq (hl : l.Apart) (h : Faithful l w) (hwritable : l.Writable w.tree)
    (hp : l.schemas p) {text : String} (htext : w.tree.readText p.text = .ok text) {m : Instant}
    (hm : w.tree.modified p.text = .ok m) : (w.tree.run (w.store.load p.text m)).1 =
      (Definition.ofText text).mapError (.unreadable p.text) := by
  obtain ⟨bytes, n, hbytes, hn, hparsed⟩ := file?_of_readText hl h hp htext
  obtain rfl : n = m := Except.ok.inj (hn.symm.trans hm)
  obtain ⟨d?, hcache, -⟩ := run_readCache w.tree (w.store.cachePath p.text) n
  rw [run_load, hcache]
  cases d? with
  | some d =>
    have hd := parsed?_of_readCache h hp (by rw [hcache]) hbytes
    rw [Option.some.inj (hparsed.symm.trans hd)]
    rfl
  | none =>
    dsimp only
    rw [run_compile, htext]
    dsimp only
    cases Definition.ofText text with
    | error fault => rfl
    | ok d =>
      obtain ⟨tree, hwrite⟩ := writeCache_ok h hwritable hp d
      dsimp only
      rw [hwrite]
      rfl

theorem readCache_of_missing {t : Tree} {cache : String} {fault : Files.Fault}
    (h : t.modified cache = .error fault) (since : Instant) :
    t.run (readCache cache since) = (none, t) := by
  simp only [readCache, run_bind, run_modified, h]
  rfl

/-- A definition of which no copy counts is read from the notation file and kept in both places. -/
theorem resolve_of_miss {path schema text : String} {m : Instant} {d : Definition} {made : Tree}
    (hpath : w.tree.canonical path = .ok schema)
    (hm : w.tree.modified schema = .ok m) (hmemory : w.store.current? schema m = none)
    (hcache : w.tree.run (readCache (w.store.cachePath schema) m) = (none, w.tree))
    (htext : w.tree.readText schema = .ok text) (hd : Definition.ofText text = .ok d)
    (hmade : w.tree.makeDirs w.store.directory = (.ok (), made))
    (hwrite : made.writeText (w.store.cachePath schema) d.serialize = .ok tree) :
    w.resolve path =
      (.ok (w.store.remember schema m d).1, ⟨tree, (w.store.remember schema m d).2⟩) := by
  have hload : w.tree.run (w.store.load schema m) = (.ok d, tree) := by
    simp only [run_load, hcache, run_compile, htext, hd, run_writeCache, hmade, hwrite]
  unfold World.resolve
  simp only [run_resolve, hpath, hm, hmemory, hload]

theorem resolve_eq (hl : l.Apart) (h : Faithful l w) (hwritable : l.Writable w.tree)
    (hp : l.schemas p) {path text : String} (hpath : w.tree.canonical path = .ok p.text)
    (htext : w.tree.readText p.text = .ok text) :
    (w.resolve path).1.map (·.definition) =
        (Definition.ofText text).mapError (.unreadable p.text) ∧
      (w.resolve path).2.store.options = w.store.options := by
  obtain ⟨bytes, m, hbytes, hm, hparsed⟩ := file?_of_readText hl h hp htext
  have hload := load_eq hl h hwritable hp htext hm
  unfold World.resolve
  rw [run_resolve, hpath]
  dsimp only
  rw [hm]
  dsimp only
  cases hentry : w.store.current? p.text m with
  | some entry =>
    obtain ⟨hkept, hcurrent⟩ := Option.filter_eq_some_iff.mp hentry
    obtain rfl : entry.modified = m := by simpa using hcurrent
    have hd := h.memory p bytes entry hp hkept hbytes
    rw [Option.some.inj (hparsed.symm.trans hd)]
    exact ⟨rfl, rfl⟩
  | none =>
    dsimp only
    generalize w.tree.run (w.store.load p.text m) = outcome at hload
    obtain ⟨result, tree⟩ := outcome
    rw [← hload]
    cases result with
    | error fault => exact ⟨rfl, rfl⟩
    | ok d => exact ⟨rfl, rfl⟩

/-- Whatever happened before, a path to a notation file is resolved to what the file is read as now,
    and documents are checked against that. -/
theorem resolve_of_run {l : Layout} (hl : l.Apart) {w₀ w : World} (hinitial : Initial l w₀)
    (hrun : Relation.ReflTransGen (Step l) w₀ w) (hwritable : l.Writable w.tree) {p : Names}
    (hp : l.schemas p) {path text : String} (hpath : w.tree.canonical path = .ok p.text)
    (htext : w.tree.readText p.text = .ok text) :
    (w.resolve path).1.map (·.definition) =
        (Definition.ofText text).mapError (.unreadable p.text) ∧
      ∀ document, (w.check path document).1 =
        ((Definition.ofText text).mapError (.unreadable p.text)).bind fun d =>
          verdict w.store.options d document := by
  have h : Faithful l w := faithful_run hl hinitial hrun
  obtain ⟨hresult, hoptions⟩ := resolve_eq hl h hwritable hp hpath htext
  refine ⟨hresult, fun document => ?_⟩
  rw [check_fst, hoptions, ← hresult]
  cases (w.resolve path).1 <;> rfl

end World

/-! ## A run

A notation file is resolved and then written anew. The store has the old definition in memory and
in its cache file, and does not serve it.
-/

namespace Sample

def layout : Layout := ⟨"/c", ["c"], (· = ["s"])⟩

def tree : Tree :=
  ⟨[([], .directory 0), (["c"], .directory 0), (["s"], .file "int".toUTF8 1)], [], 2⟩

def world : World := ⟨tree, Store.new (some "/c") {}⟩

def cache : String := "8e295f312d7e62d4db0ad6d62af018762334aad2c67fe3479a0b57115ac6c292.json"

/-- The tree with the cache file in it. -/
def stored : Tree :=
  tree.add ["c", cache] (.file (Definition.primitive .int).serialize.toUTF8 2)

/-- The world behind the resolution, with the notation file written anew. -/
def edited : World :=
  ⟨(world.resolve "/s").2.tree.put ["s"] (.file "bool".toUTF8 9), (world.resolve "/s").2.store⟩

theorem schema_text : Names.text ["s"] = "/s" := by
  decide +kernel

theorem cacheName_eq : Layout.cacheName ["s"] = cache := by
  decide +kernel

theorem cachePath_eq : layout.cachePath ["s"] = "/c/" ++ cache := by
  rw [Layout.cachePath, cacheName_eq]
  decide +kernel

theorem cacheFile_eq : layout.cacheFile ["s"] = ["c", cache] := by
  rw [Layout.cacheFile, cacheName_eq]
  rfl

variable (t : Tree) {m : Instant}

/-- A file right below the root directory with a name of one letter. -/
theorem find_top {path name : String} {bytes : ByteArray} (hpath : segmentsOf path = ["", name])
    (hchecked : checked ["", name] = .ok ["", name]) (hsize : name.utf8ByteSize = 1)
    (hpoint : name ≠ ".") (h : t.node? [name] = some (.file bytes m)) :
    t.find path = .ok ([name], .file bytes m) := by
  have hempty : name ≠ "" := by
    rintro rfl
    exact absurd hsize (by decide)
  have hup : name ≠ ".." := by
    rintro rfl
    exact absurd hsize (by decide +kernel)
  refine find_eq_ok.mpr ⟨locate_eq_ok.mpr ⟨by rw [hpath, hchecked], ?_⟩, h⟩
  rw [hpath]
  simp [walk, origin, isAbsolute, h, hsize, hempty, hpoint, hup]

theorem find_schema {bytes : ByteArray} (h : t.node? ["s"] = some (.file bytes m)) :
    t.find "/s" = .ok (["s"], .file bytes m) :=
  find_top t (by decide +kernel) rfl (by decide +kernel) (by decide) h

theorem canonical_schema {bytes : ByteArray} (h : t.node? ["s"] = some (.file bytes m)) :
    t.canonical "/s" = .ok "/s" := by
  rw [canonical, find_schema t h]
  rfl

theorem readText_schema {text : String} (h : t.node? ["s"] = some (.file text.toUTF8 m)) :
    t.readText "/s" = .ok text :=
  readText_eq_ok.mpr ⟨_, _, _, find_schema t h, fromUTF8?_toUTF8 text⟩

theorem locate_cache (made : Bool) (hdirectory : t.node? ["c"] = some (.directory m))
    (hlink : ∀ target, t.node? ["c", cache] ≠ some (.link target)) :
    t.locate made ("/c/" ++ cache) = .ok ["c", cache] := by
  have hsegments : segmentsOf ("/c/" ++ cache) = ["", "c", cache] := by decide +kernel
  have hchecked : checked ["", "c", cache] = .ok ["", "c", cache] := rfl
  have hsize : cache.utf8ByteSize = 69 := by decide +kernel
  have hc : "c".utf8ByteSize = 1 := by decide +kernel
  have hname : cache ≠ "" ∧ cache ≠ "." ∧ cache ≠ ".." := by decide +kernel
  have hlast : t.walk made linkLimit ["c"] [cache] = .ok ["c", cache] := by
    rw [walk_name t _ _ hname.1 (by simp [hname]) hname.2.1 hname.2.2 (by omega)]
    split
    · rfl
    · rfl
    · rw [walk]
      rfl
    · next target htarget => exact absurd htarget (hlink target)
  have hfirst : t.walk made linkLimit [] ["c", cache] = .ok ["c", cache] := by
    rw [walk_name t _ _ (by decide) (by simp [hname]) (by decide) (by decide) (by omega)]
    rw [List.nil_append, hdirectory]
    exact hlast
  have horigin : t.origin ["", "c", cache] = [] := rfl
  refine locate_eq_ok.mpr ⟨by rw [hsegments, hchecked], ?_⟩
  rw [hsegments, horigin, walk, if_pos rfl, hfirst]

theorem makeDirs_directory (hdirectory : t.node? ["c"] = some (.directory m)) :
    t.makeDirs "/c" = (.ok (), t) := by
  have hsegments : segmentsOf "/c" = ["", "c"] := by decide +kernel
  have hchecked : checked ["", "c"] = .ok ["", "c"] := rfl
  have hsize : "c".utf8ByteSize = 1 := by decide +kernel
  have hmade : t.makeDir ["", "c"] = .ok t := by
    simp [makeDir, hchecked, Tree.entry?, walk, origin, isAbsolute, hdirectory, hsize, bind,
      Except.bind, isDirectory]
  simp [makeDirs, hsegments, makeDirsBelow, hmade, atOnce]

theorem straight {n : Instant} {bytes : ByteArray} (hroot : t.node? [] = some (.directory n))
    (hnode : t.node? ["s"] = some (.file bytes m)) : t.Straight ["s"] := by
  intro q target hq hlink
  rcases List.prefix_cons_iff.mp hq with rfl | ⟨below, rfl, hbelow⟩
  · exact absurd (hroot.symm.trans hlink) (by simp)
  · obtain rfl := List.prefix_nil.mp hbelow
    exact absurd (hnode.symm.trans hlink) (by simp)

theorem writable (hdirectory : t.node? ["c"] = some (.directory m))
    (hcache : t.isDirectory ["c", cache] = false)
    (hlink : ∀ target, t.node? ["c", cache] ≠ some (.link target)) : layout.Writable t := by
  refine ⟨t, makeDirs_directory t hdirectory, ?_⟩
  rintro _ rfl
  rw [cachePath_eq, cacheFile_eq]
  exact ⟨locate_cache t true hdirectory hlink, hcache, hlink⟩

theorem readsBack {text : String} {k : Keyword}
    (hnode : t.node? ["s"] = some (.file text.toUTF8 m))
    (htext : Definition.ofText text = .ok (.primitive k)) : layout.ReadsBack t := by
  rintro _ bytes n d rfl hbytes hd
  obtain ⟨rfl, rfl⟩ := Node.file.inj (Option.some.inj (hnode.symm.trans (file?_eq_some.mp hbytes)))
  have hparsed : parsed? text.toUTF8 = some (Definition.ofText text) :=
    congrArg (Option.map Definition.ofText) (fromUTF8?_toUTF8 text)
  rw [hparsed, htext] at hd
  obtain rfl := Except.ok.inj (Option.some.inj hd)
  exact fun b hb => absurd hb (by simp [Definition.bounds])

theorem apart : layout.Apart where
  plain := by
    rintro _ rfl
    exact ⟨by simp, by simp⟩
  digest := by
    rintro _ _ rfl rfl _
    rfl
  cacheFile := by
    rintro _ _ rfl rfl
    rw [cacheFile_eq]
    simp

theorem node?_cache : tree.node? ["c", cache] = none := rfl

theorem initial : World.Initial layout world where
  directory := rfl
  entries := rfl
  straight := by
    rintro _ rfl
    exact straight tree rfl rfl
  writable := writable tree rfl rfl (by simp [node?_cache])
  reads := readsBack tree rfl rfl
  cache := by
    rintro _ bytes m rfl hfile
    rw [cacheFile_eq, file?_eq_some] at hfile
    exact absurd (node?_cache.symm.trans hfile) (by simp)

theorem writeText_cache {text : String} (hnone : t.node? ["c", cache] = none)
    (hlocate : t.locate true ("/c/" ++ cache) = .ok ["c", cache]) :
    t.writeText ("/c/" ++ cache) text = .ok (t.add ["c", cache] (.file text.toUTF8 t.now)) := by
  simp only [writeText, writeBytes, hlocate, hnone, bind, Except.bind]

theorem modified_cache (hnone : t.node? ["c", cache] = none)
    (hlocate : t.locate false ("/c/" ++ cache) = .ok ["c", cache]) :
    t.modified ("/c/" ++ cache) = .error .notFound := by
  simp [modified, Tree.find, hlocate, hnone, bind, Except.bind]

theorem cachePath_schema : world.store.cachePath "/s" = "/c/" ++ cache := by
  have hstore : world.store.directory = layout.directory := rfl
  rw [← cachePath_eq, ← Layout.cachePath_eq hstore ["s"], schema_text]

/-- A definition that is nowhere kept is read from the notation file, and kept. -/
theorem resolve_tree_eq (hschema : t.node? ["s"] = some (.file "int".toUTF8 1))
    (hdirectory : t.node? ["c"] = some (.directory m)) (hnone : t.node? ["c", cache] = none) :
    World.resolve ⟨t, world.store⟩ "/s" = (.ok (world.store.remember "/s" 1 (.primitive .int)).1,
      ⟨t.add ["c", cache] (.file (Definition.primitive .int).serialize.toUTF8 t.now),
        (world.store.remember "/s" 1 (.primitive .int)).2⟩) := by
  have hfind : t.find "/s" = .ok (["s"], .file "int".toUTF8 1) := find_schema t hschema
  have hlocate : ∀ made, t.locate made ("/c/" ++ cache) = .ok ["c", cache] := fun made =>
    locate_cache t made hdirectory (by simp [hnone])
  have hmiss : t.modified (world.store.cachePath "/s") = .error .notFound :=
    cachePath_schema ▸ modified_cache t hnone (hlocate false)
  have hwrite : t.writeText (world.store.cachePath "/s") (Definition.primitive .int).serialize =
      .ok (t.add ["c", cache] (.file (Definition.primitive .int).serialize.toUTF8 t.now)) :=
    cachePath_schema ▸ writeText_cache t hnone (hlocate true)
  exact World.resolve_of_miss (w := ⟨t, world.store⟩) (canonical_schema t hschema)
    (modified_of_find hfind) rfl (World.readCache_of_missing hmiss 1) (readText_schema t hschema) rfl
    (makeDirs_directory t hdirectory) hwrite

theorem resolve_world_eq : world.resolve "/s" =
    (.ok (world.store.remember "/s" 1 (.primitive .int)).1,
      ⟨stored, (world.store.remember "/s" 1 (.primitive .int)).2⟩) :=
  resolve_tree_eq tree rfl rfl node?_cache

theorem resolve_world : (world.resolve "/s").2 =
    ⟨stored, (world.store.remember "/s" 1 (.primitive .int)).2⟩ :=
  congrArg Prod.snd resolve_world_eq

theorem run : Relation.ReflTransGen (World.Step layout) world edited := by
  have hresolve : World.Step layout world (world.resolve "/s").2 := by
    refine .resolve fun schema hschema => ⟨["s"], rfl, ?_⟩
    exact Except.ok.inj (hschema.symm.trans (canonical_schema tree rfl))
  have hedit : World.Step layout (world.resolve "/s").2 edited := by
    unfold edited
    rw [resolve_world]
    have hnode : stored.node? ["s"] = some (.file "int".toUTF8 1) := rfl
    refine .edit (p := ["s"]) rfl (edits_put_file _ _ rfl (by simp [hnode]))
      (readsBack _ (node?_put_self _ _ _) rfl) ?_ ?_
    · intro bytes m kept since hfile hkept
      rw [file?_put_self] at hfile
      rw [cacheFile_eq, stored, file?_add] at hkept
      obtain ⟨-, rfl⟩ := Prod.mk.inj (Option.some.inj hfile)
      obtain ⟨-, rfl⟩ := Prod.mk.inj (Option.some.inj hkept)
      decide
    · intro bytes m entry hfile hentry
      rw [file?_put_self] at hfile
      have hself := entry?_remember_self world.store "/s" 1 (.primitive .int)
      obtain ⟨-, rfl⟩ := Prod.mk.inj (Option.some.inj hfile)
      obtain rfl := Option.some.inj (hself.symm.trans hentry)
      decide
  exact .tail (.single hresolve) hedit

end Sample

theorem World.resolve_of_run_edited :
    (Sample.edited.resolve "/s").1.map (·.definition) = .ok (.primitive .bool) ∧
      ∀ document, (Sample.edited.check "/s" document).1 =
        World.verdict Sample.edited.store.options (.primitive .bool) document := by
  have hnode : Sample.edited.tree.node? ["s"] = some (.file "bool".toUTF8 9) :=
    node?_put_self _ _ _
  have hwritable : Sample.layout.Writable Sample.edited.tree := by
    have hstored : Sample.edited.tree = Sample.stored.put ["s"] (.file "bool".toUTF8 9) := by
      rw [Sample.edited, Sample.resolve_world]
    have hcache : (Sample.stored.put ["s"] (.file "bool".toUTF8 9)).node? ["c", Sample.cache] =
        some (.file (Definition.primitive .int).serialize.toUTF8 2) := rfl
    rw [hstored]
    exact Sample.writable _ rfl rfl fun _ hlink => absurd (hcache.symm.trans hlink) (by simp)
  have hdefinition : Definition.ofText "bool" = .ok (.primitive .bool) := rfl
  have hcanonical : Sample.edited.tree.canonical "/s" = .ok (Names.text ["s"]) := by
    rw [Sample.canonical_schema _ hnode, Sample.schema_text]
  have htext : Sample.edited.tree.readText (Names.text ["s"]) = .ok "bool" := by
    rw [Sample.schema_text, Sample.readText_schema _ hnode]
  have hrun := World.resolve_of_run Sample.apart Sample.initial Sample.run hwritable rfl hcanonical
    htext
  rwa [hdefinition] at hrun

end CompactSchema.Store
