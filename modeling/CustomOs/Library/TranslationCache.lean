import Mathlib.Data.Set.Insert

/-! # Two-level translation caches
A translation goes through a directory entry and then through the table it names. A cache keeps
translations of pages and directory entries; it may fill or forget at any moment, and forgets on
demand. The rules say when its contents stay those of the tables while the tables change. -/
namespace TranslationCache

/-- The tables at one moment: the slot of a page, the entry in a slot, and the translation of a
page through an entry. -/
structure Tables (δ ε π φ : Type*) where
  index : π → δ
  directory : δ → Option ε
  table : ε → π → Option φ

structure Cache (δ ε π φ : Type*) where
  pages : Set (π × φ)
  entries : Set (δ × ε)

variable {δ ε π φ : Type*}

def Tables.walk (t : Tables δ ε π φ) (v : π) : Option φ :=
  (t.directory (t.index v)).bind fun e => t.table e v

/-- An entry a walk for `v` may use: that of the tables, or a cached one. -/
def Usable (t : Tables δ ε π φ) (c : Cache δ ε π φ) (v : π) (e : ε) : Prop :=
  t.directory (t.index v) = some e ∨ (t.index v, e) ∈ c.entries

/-- What the cache may do by itself. -/
inductive Fill (t : Tables δ ε π φ) (c : Cache δ ε π φ) : Cache δ ε π φ → Prop where
  | page {v : π} {e : ε} {f : φ} (husable : Usable t c v e) (htable : t.table e v = some f) :
      Fill t c { c with pages := insert (v, f) c.pages }
  | entry {d : δ} {e : ε} (hentry : t.directory d = some e) :
      Fill t c { c with entries := insert (d, e) c.entries }
  | evict {c' : Cache δ ε π φ} (hpages : c'.pages ⊆ c.pages) (hentries : c'.entries ⊆ c.entries) :
      Fill t c c'

/-- Forgetting a page forgets every directory entry with it. -/
def Cache.invalidate (c : Cache δ ε π φ) (v : π) : Cache δ ε π φ :=
  ⟨{x | x ∈ c.pages ∧ x.1 ≠ v}, ∅⟩

/-- An access to page `v` may end at `f`. -/
inductive Translates (t : Tables δ ε π φ) (c : Cache δ ε π φ) (v : π) (f : φ) : Prop where
  | cached (hpage : (v, f) ∈ c.pages) : Translates t c v f
  | walked {e : ε} (husable : Usable t c v e) (htable : t.table e v = some f) : Translates t c v f

/-- Cached pages agree with the tables outside `stale`, and no cached entry leads elsewhere. -/
structure Sound (t : Tables δ ε π φ) (c : Cache δ ε π φ) (stale : Set π) : Prop where
  pages : ∀ v f, (v, f) ∈ c.pages → v ∉ stale → t.walk v = some f
  entries : ∀ v e f, (t.index v, e) ∈ c.entries → t.table e v = some f → t.walk v = some f

variable {t t' : Tables δ ε π φ} {c c' : Cache δ ε π φ} {stale stale' : Set π} {v : π} {f : φ}

theorem walk_of_directory {e : ε} (hentry : t.directory (t.index v) = some e)
    (htable : t.table e v = some f) : t.walk v = some f := by
  simp [Tables.walk, hentry, htable]

/-- A walk finds what the tables give, whichever entry it starts from. -/
theorem Sound.usable (h : Sound t c stale) {e : ε} (husable : Usable t c v e)
    (htable : t.table e v = some f) : t.walk v = some f := by
  rcases husable with hentry | hcached
  · exact walk_of_directory hentry htable
  · exact h.entries v e f hcached htable

theorem Sound.fill (h : Sound t c stale) (hfill : Fill t c c') : Sound t c' stale := by
  cases hfill with
  | page husable htable =>
    refine ⟨fun w g hpage hw => ?_, h.entries⟩
    rcases hpage with hnew | hold
    · obtain ⟨rfl, rfl⟩ := Prod.mk.inj hnew
      exact h.usable husable htable
    · exact h.pages w g hold hw
  | entry hentry =>
    refine ⟨h.pages, fun w e g hcached htable => ?_⟩
    rcases hcached with hnew | hold
    · obtain ⟨rfl, rfl⟩ := Prod.mk.inj hnew
      exact walk_of_directory hentry htable
    · exact h.entries w e g hold htable
  | evict hpages hentries =>
    exact ⟨fun w g hpage => h.pages w g (hpages hpage),
      fun w e g hcached => h.entries w e g (hentries hcached)⟩

theorem Sound.invalidate (h : Sound t c stale) (v : π) :
    Sound t (c.invalidate v) (stale \ {v}) := by
  refine ⟨fun w f hpage hw => h.pages w f hpage.1 fun hstale => ?_, fun w e f hcached => ?_⟩
  · exact hw ⟨hstale, hpage.2⟩
  · exact absurd hcached (Set.notMem_empty _)

/-- The tables may change where the cache cannot tell, or under pages that turn stale. -/
theorem Sound.change (h : Sound t c stale) (hindex : t'.index = t.index) (hsub : stale ⊆ stale')
    (hwalk : ∀ v f, v ∉ stale' → t.walk v = some f → t'.walk v = some f)
    (htable : ∀ v e f, (t.index v, e) ∈ c.entries → t'.table e v = some f →
      t'.walk v = some f) : Sound t' c stale' := by
  refine ⟨fun v f hpage hv => ?_, fun v e f hcached => ?_⟩
  · exact hwalk v f hv (h.pages v f hpage fun hstale => hv (hsub hstale))
  · rw [hindex] at hcached
    exact htable v e f hcached

/-- With nothing stale, every access ends where the tables say. -/
theorem Sound.translates_iff (h : Sound t c ∅) : Translates t c v f ↔ t.walk v = some f := by
  constructor
  · intro htranslates
    cases htranslates with
    | cached hpage => exact h.pages v f hpage (Set.notMem_empty v)
    | walked husable htable => exact h.usable husable htable
  · intro hwalk
    obtain ⟨e, hentry, htable⟩ := Option.bind_eq_some_iff.mp hwalk
    exact .walked (Or.inl hentry) htable

end TranslationCache
