import Mathlib.Data.List.Forall2
import Mathlib.Data.List.Pairwise
import Mathlib.Data.List.Perm.Basic
import PackagePool.Proofs.Pool.Deduplication
import PackagePool.Proofs.Pool.IndexedQueries
import PackagePool.Proofs.Pool.Sorting

/-!
# The order of insertions

The order in which units are inserted decides about slots and handles and, among duplicates, about
which of them stays.  It decides about nothing else.  Which identities there are, from where, with
which installed facet and under which lock, and how many: this is the same for every order.

A duplicate may differ from the item that stays in the parts of its edition and in what it declares,
so items are compared by their `facets` as long as there are duplicates, and by their whole content
if there are none.  The invariant is `Pool.Stocks`: every item comes from an entry of the list,
every entry is anticipated by an item, and no item anticipates another.  The facets of the items are
then those of the entries, each of them once, and a list without repetitions is known by its
members.
-/

namespace PackagePool

/-- A unit to be inserted, with its installed facet. -/
@[ext] structure Entry where
  unit : PackageUnit
  installed : Bool

namespace Entry

/-- The entries agree in identity, origin and installed facet. -/
structure Duplicates (a b : Entry) : Prop where
  resolvable_eq : (a.unit.resolvable == b.unit.resolvable) = true
  source_eq : a.unit.source = b.unit.source
  installed_eq : a.installed = b.installed

theorem Duplicates.refl (a : Entry) : a.Duplicates a :=
  ⟨BEq.rfl, rfl, rfl⟩

theorem Duplicates.symm {a b : Entry} (h : a.Duplicates b) : b.Duplicates a :=
  ⟨BEq.symm h.resolvable_eq, h.source_eq.symm, h.installed_eq.symm⟩

instance : Std.Symm fun a b : Entry => ¬ a.Duplicates b :=
  ⟨fun _ _ hnot hduplicates => hnot hduplicates.symm⟩

/-- The unit, and the status that it gets as a new item. -/
def content (config : PoolConfig) (e : Entry) : PackageUnit × Status :=
  (e.unit, .initial e.installed (config.isLocked e.unit.resolvable))

theorem content_injective (config : PoolConfig) : Function.Injective (content config) := by
  intro a b heq
  obtain ⟨hunit, hstatus⟩ := Prod.mk.inj heq
  exact Entry.ext hunit (congrArg Status.installed hstatus)

end Entry

/-! ## What an item shows of itself -/

/-- The unit and the status of an item. -/
def Item.content (item : Item) : PackageUnit × Status :=
  (item.unit, item.status)

/-- The capability of an association, and the content of its item. -/
def Association.content (a : Association) : Capability × PackageUnit × Status :=
  (a.capability, a.item.content)

/-- The items agree in identity, origin, installed facet and lock. -/
structure Item.Resembles (a b : Item) : Prop where
  resolvable_eq : (a.unit.resolvable == b.unit.resolvable) = true
  source_eq : a.unit.source = b.unit.source
  installed_eq : a.status.installed = b.status.installed
  locked_eq : a.status.locked = b.status.locked

/-- What resembling items have in common.  The fingerprint stands for the identity. -/
structure Facets where
  identity : Fingerprint
  source : Label
  installed : Bool
  locked : Bool

/-- The facets of a unit with a status. -/
def facets (content : PackageUnit × Status) : Facets :=
  ⟨content.1.resolvable.fingerprint, content.1.source, content.2.installed, content.2.locked⟩

theorem facets_content_eq_iff {a b : Item} :
    facets a.content = facets b.content ↔ a.Resembles b := by
  simp only [facets, Item.content, Facets.mk.injEq, Resolvable.fingerprint_eq_iff]
  constructor
  · rintro ⟨hresolvable, hsource, hinstalled, hlocked⟩
    exact ⟨hresolvable, hsource, hinstalled, hlocked⟩
  · rintro ⟨hresolvable, hsource, hinstalled, hlocked⟩
    exact ⟨hresolvable, hsource, hinstalled, hlocked⟩

theorem Item.Resembles.anticipates {a b : Item} (h : a.Resembles b) :
    a.Anticipates b.unit b.status.installed :=
  ⟨h.resolvable_eq, h.source_eq, h.installed_eq⟩

/-- Of duplicates, whichever becomes an item has the same facets. -/
theorem Entry.Duplicates.facets_eq {a b : Entry} (h : a.Duplicates b) (config : PoolConfig) :
    facets (a.content config) = facets (b.content config) := by
  have hlocked := PoolConfig.isLocked_congr h.resolvable_eq config
  have hidentity := Resolvable.fingerprint_eq_iff.2 h.resolvable_eq
  simp only [facets, Entry.content, hidentity, h.source_eq, h.installed_eq, hlocked]

namespace Pool

/-! ## Lists that agree in what is looked at -/

/-- Lists with the same images, each equally often, correspond to each other. -/
theorem exists_perm_forall₂_of_perm_map {α β : Type} {f : α → β} {xs ys : List α}
    (hperm : (xs.map f).Perm (ys.map f)) :
    ∃ zs, zs.Perm ys ∧ List.Forall₂ (fun a b => f a = f b) xs zs := by
  have hself : List.Forall₂ (fun image a => image = f a) (ys.map f) ys := by
    rw [List.forall₂_map_left_iff]
    exact List.forall₂_same.2 fun _ _ => rfl
  obtain ⟨zs, hzs, hys⟩ := List.perm_comp_forall₂ hperm hself
  exact ⟨zs, hys, List.forall₂_map_left_iff.1 hzs⟩

/-! ## Lists of insertions -/

/-- The insertions of the entries in order. -/
def insertions (entries : List Entry) : List Op :=
  entries.map fun e => .insert e.unit e.installed

/-- The items of the pool come from the entries, and each entry is anticipated by one of them. -/
structure Stocks (config : PoolConfig) (p : Pool) (roster : List Item) (entries : List Entry) :
    Prop where
  hasRoster : HasRoster p roster
  distinct : NoDuplicates roster
  origin : ∀ item ∈ roster, ∃ e ∈ entries, item.content = e.content config
  covered : ∀ e ∈ entries, ∃ item ∈ roster, item.Anticipates e.unit e.installed
  generation_eq : p.generation = UInt64.ofNat roster.length
  config_eq : p.config = config

variable {config : PoolConfig} {p q : Pool} {roster roster' : List Item}
  {entries others : List Entry}

theorem stocks_empty (config : PoolConfig) : Stocks config (empty config) [] [] where
  hasRoster := hasRoster_empty config
  distinct := by simp [NoDuplicates]
  origin := by simp
  covered := by simp
  generation_eq := rfl
  config_eq := rfl

theorem Stocks.duplicate (hstocks : Stocks config p roster entries) {e : Entry}
    (hcovered : ∃ item ∈ roster, item.Anticipates e.unit e.installed) :
    Stocks config p roster (entries ++ [e]) where
  hasRoster := hstocks.hasRoster
  distinct := hstocks.distinct
  origin item hitem := by
    obtain ⟨source, hsource, hcontent⟩ := hstocks.origin item hitem
    exact ⟨source, List.mem_append_left _ hsource, hcontent⟩
  covered other hother := by
    rcases List.mem_append.1 hother with hother | hother
    · exact hstocks.covered other hother
    · rw [List.mem_singleton.1 hother]
      exact hcovered
  generation_eq := hstocks.generation_eq
  config_eq := hstocks.config_eq

theorem Stocks.place (hstocks : Stocks config p roster entries) {e : Entry}
    (hnew : ∀ item ∈ roster, ¬ item.Anticipates e.unit e.installed) :
    Stocks config (p.place e.unit e.installed).1 (roster ++ [p.arrival e.unit e.installed])
      (entries ++ [e]) where
  hasRoster := hstocks.hasRoster.place e.unit e.installed
  distinct := hstocks.distinct.place hnew
  origin item hitem := by
    rcases List.mem_append.1 hitem with hitem | hitem
    · obtain ⟨source, hsource, hcontent⟩ := hstocks.origin item hitem
      exact ⟨source, List.mem_append_left _ hsource, hcontent⟩
    · refine ⟨e, List.mem_append_right _ List.mem_cons_self, ?_⟩
      rw [List.mem_singleton.1 hitem, Item.content, Entry.content, ← hstocks.config_eq]
      rfl
  covered other hother := by
    rcases List.mem_append.1 hother with hother | hother
    · obtain ⟨item, hitem, hanticipates⟩ := hstocks.covered other hother
      exact ⟨item, List.mem_append_left _ hitem, hanticipates⟩
    · rw [List.mem_singleton.1 hother]
      exact ⟨_, List.mem_append_right _ List.mem_cons_self, BEq.rfl, rfl, rfl⟩
  generation_eq := by
    show p.generation + 1 = _
    rw [hstocks.generation_eq, List.length_append, List.length_singleton, UInt64.ofNat_add]
    rfl
  config_eq := hstocks.config_eq

theorem Stocks.insert (hstocks : Stocks config p roster entries) (e : Entry) :
    ∃ roster', Stocks config (p.step (.insert e.unit e.installed)).1 roster' (entries ++ [e]) := by
  cases hfound : p.findDuplicate? e.unit e.installed with
  | some h =>
    obtain ⟨item, hitem, -, hanticipates⟩ := hstocks.hasRoster.exists_of_findDuplicate? hfound
    rw [(Transition.duplicate hfound).step_eq]
    exact ⟨roster, hstocks.duplicate ⟨item, hitem, hanticipates⟩⟩
  | none =>
    rw [(Transition.placed hfound).step_eq]
    exact ⟨_, hstocks.place (hstocks.hasRoster.findDuplicate?_eq_none_iff.1 hfound)⟩

theorem Stocks.after (hstocks : Stocks config p roster entries) (later : List Entry) :
    ∃ roster', Stocks config (p.after (insertions later)) roster' (entries ++ later) := by
  induction later generalizing p roster entries with
  | nil =>
    rw [List.append_nil]
    exact ⟨roster, hstocks⟩
  | cons e later ih =>
    obtain ⟨next, hnext⟩ := hstocks.insert e
    have hlater := ih hnext
    rwa [List.append_assoc, List.singleton_append] at hlater

/-- After insertions the pool stocks what was inserted. -/
theorem exists_stocks_after (config : PoolConfig) (entries : List Entry) :
    ∃ roster, Stocks config ((empty config).after (insertions entries)) roster entries :=
  (stocks_empty config).after entries

/-! ## The facets of the items are those of the entries -/

theorem Stocks.eq_of_facets (hstocks : Stocks config p roster entries) {a b : Item}
    (ha : a ∈ roster) (hb : b ∈ roster) (heq : facets a.content = facets b.content) : a = b :=
  hstocks.distinct a ha b hb (facets_content_eq_iff.1 heq).anticipates

theorem Stocks.nodup_facets (hstocks : Stocks config p roster entries) :
    (roster.map fun item => facets item.content).Nodup :=
  hstocks.hasRoster.nodup.map_on fun _ ha _ hb heq => hstocks.eq_of_facets ha hb heq

/-- The item that anticipates an entry comes from a duplicate of the entry. -/
theorem Stocks.exists_source_of_anticipates (hstocks : Stocks config p roster entries) {item : Item}
    (hitem : item ∈ roster) {e : Entry} (hanticipates : item.Anticipates e.unit e.installed) :
    ∃ source ∈ entries, source.Duplicates e ∧ item.content = source.content config := by
  obtain ⟨source, hsource, hcontent⟩ := hstocks.origin item hitem
  obtain ⟨hunit, hstatus⟩ := Prod.mk.inj hcontent
  have hinstalled : item.status.installed = source.installed := congrArg Status.installed hstatus
  refine ⟨source, hsource, ⟨?_, ?_, ?_⟩, hcontent⟩
  · rw [← hunit]
    exact hanticipates.resolvable_eq
  · rw [← hunit]
    exact hanticipates.source_eq
  · rw [← hinstalled]
    exact hanticipates.installed_eq

theorem Stocks.mem_facets_iff (hstocks : Stocks config p roster entries) {f : Facets} :
    f ∈ (roster.map fun item => facets item.content) ↔
      f ∈ entries.map fun e => facets (e.content config) := by
  simp only [List.mem_map]
  constructor
  · rintro ⟨item, hitem, rfl⟩
    obtain ⟨e, he, hcontent⟩ := hstocks.origin item hitem
    exact ⟨e, he, by rw [hcontent]⟩
  · rintro ⟨e, he, rfl⟩
    obtain ⟨item, hitem, hanticipates⟩ := hstocks.covered e he
    obtain ⟨source, -, hduplicates, hcontent⟩ :=
      hstocks.exists_source_of_anticipates hitem hanticipates
    exact ⟨item, hitem, by rw [hcontent, hduplicates.facets_eq]⟩

theorem Stocks.perm_facets (hp : Stocks config p roster entries)
    (hq : Stocks config q roster' others) (hperm : entries.Perm others) :
    (roster.map fun item => facets item.content).Perm
      (roster'.map fun item => facets item.content) := by
  refine (List.perm_ext_iff_of_nodup hp.nodup_facets hq.nodup_facets).2 fun f => ?_
  rw [hp.mem_facets_iff, hq.mem_facets_iff]
  exact (hperm.map _).mem_iff

/-! ## Entries without duplicates -/

/-- Without duplicates among the entries, each of them becomes an item. -/
theorem Stocks.perm_content (hstocks : Stocks config p roster entries)
    (hdistinct : entries.Pairwise fun a b => ¬ a.Duplicates b) :
    (roster.map Item.content).Perm (entries.map (Entry.content config)) := by
  have hnodup : entries.Nodup := by
    refine hdistinct.imp ?_
    rintro a _ hnot rfl
    exact hnot (.refl a)
  have hroster : (roster.map Item.content).Nodup :=
    hstocks.hasRoster.nodup.map_on fun _ ha _ hb heq =>
      hstocks.eq_of_facets ha hb (congrArg facets heq)
  refine (List.perm_ext_iff_of_nodup hroster (hnodup.map (Entry.content_injective config))).2 ?_
  intro content
  simp only [List.mem_map]
  constructor
  · rintro ⟨item, hitem, rfl⟩
    obtain ⟨e, he, hcontent⟩ := hstocks.origin item hitem
    exact ⟨e, he, hcontent.symm⟩
  · rintro ⟨e, he, rfl⟩
    obtain ⟨item, hitem, hanticipates⟩ := hstocks.covered e he
    obtain ⟨source, hsource, hduplicates, hcontent⟩ :=
      hstocks.exists_source_of_anticipates hitem hanticipates
    have hsame : source = e := by
      by_contra hne
      exact hdistinct.forall hsource he hne hduplicates
    exact ⟨item, hitem, by rw [hcontent, hsame]⟩

/-- Associations depend on the contents of the items only, up to the handles in them. -/
theorem perm_content_flatMap (hperm : (roster.map Item.content).Perm (roster'.map Item.content))
    (caps : PackageUnit → List Capability) (kind : DepKind) :
    ((roster.flatMap fun item => (caps item.unit).map fun cap => ⟨cap, kind, item⟩).map
        Association.content).Perm
      ((roster'.flatMap fun item => (caps item.unit).map fun cap => ⟨cap, kind, item⟩).map
        Association.content) := by
  have hview : ∀ items : List Item,
      (items.flatMap fun item => (caps item.unit).map fun cap => ⟨cap, kind, item⟩).map
          Association.content =
        (items.map Item.content).flatMap fun content => (caps content.1).map (·, content) := by
    intro items
    rw [List.map_flatMap, List.flatMap_map]
    exact List.flatMap_congr fun item _ => List.map_map
  rw [hview, hview]
  exact hperm.flatMap_right _

/-! ## Insertions in any order -/

/-- The pools hold the same up to the parts of equal editions, up to what duplicates declare, and up
to the places of the items. -/
structure HoldsAlike (p q : Pool) : Prop where
  size_eq : p.size = q.size
  generation_eq : p.generation = q.generation
  sorted_alike :
    List.Forall₂ (fun a b => (a.unit.resolvable == b.unit.resolvable) = true) p.sorted q.sorted
  items_alike : ∃ items, items.Perm q.items ∧ List.Forall₂ Item.Resembles p.items items

/-- The pools give the same associations up to their order and the handles of their items. -/
structure AnswersAlike (p q : Pool) : Prop where
  byCapability_perm : ∀ kind name, ((p.byCapability kind name).map Association.content).Perm
    ((q.byCapability kind name).map Association.content)
  satisfying_perm : ∀ required, ((p.satisfying required).map Association.content).Perm
    ((q.satisfying required).map Association.content)

theorem Stocks.holdsAlike (hp : Stocks config p roster entries)
    (hq : Stocks config q roster' others) (hperm : entries.Perm others) : HoldsAlike p q := by
  have hroster := hp.perm_facets hq hperm
  have hlength : roster.length = roster'.length := by simpa using hroster.length_eq
  have hitems : (p.items.map fun item => facets item.content).Perm
      (q.items.map fun item => facets item.content) :=
    ((hp.hasRoster.perm_items.symm.map _).trans hroster).trans (hq.hasRoster.perm_items.map _)
  constructor
  case size_eq => rw [size, size, hp.hasRoster.live_eq, hq.hasRoster.live_eq, hlength]
  case generation_eq => rw [hp.generation_eq, hq.generation_eq, hlength]
  case sorted_alike =>
    have hsorted : (p.sorted.map fun item => facets item.content).Perm
        (q.sorted.map fun item => facets item.content) :=
      (((List.mergeSort_perm _ _).map _).trans hitems).trans ((List.mergeSort_perm _ _).map _).symm
    have hidentity := hsorted.map Facets.identity
    have hfingerprint : ∀ items : List Item,
        (items.map fun item => facets item.content).map Facets.identity =
          (items.map fun item => item.unit.resolvable).map Resolvable.fingerprint := by
      intro items
      rw [List.map_map, List.map_map]
      rfl
    rw [hfingerprint, hfingerprint] at hidentity
    have hpairs := Resolvable.forall₂_beq_of_pairwise (List.pairwise_map.2 (sorted_pairwise p))
      (List.pairwise_map.2 (sorted_pairwise q)) hidentity
    rwa [List.forall₂_map_left_iff, List.forall₂_map_right_iff] at hpairs
  case items_alike =>
    obtain ⟨items, hsame, hpairs⟩ := exists_perm_forall₂_of_perm_map hitems
    exact ⟨items, hsame, hpairs.imp fun _ _ => facets_content_eq_iff.1⟩

theorem Stocks.answersAlike (hp : Stocks config p roster entries)
    (hq : Stocks config q roster' others) (hperm : entries.Perm others)
    (hdistinct : entries.Pairwise fun a b => ¬ a.Duplicates b) : AnswersAlike p q := by
  have hdistinct' : others.Pairwise fun a b => ¬ a.Duplicates b :=
    (hperm.pairwise_iff fun hnot hduplicates => hnot hduplicates.symm).1 hdistinct
  have hcontent : (roster.map Item.content).Perm (roster'.map Item.content) :=
    ((hp.perm_content hdistinct).trans (hperm.map _)).trans (hq.perm_content hdistinct').symm
  constructor
  case byCapability_perm =>
    intro kind name
    rw [hp.hasRoster.byCapability_eq, hq.hasRoster.byCapability_eq]
    exact perm_content_flatMap hcontent
      (fun u => (u.deps kind).filter fun cap => cap.name = name) kind
  case satisfying_perm =>
    intro required
    rw [hp.hasRoster.satisfying_eq, hq.hasRoster.satisfying_eq]
    exact perm_content_flatMap hcontent
      (fun u => (u.deps .provides).filter fun cap => required.satisfiedBy cap = .yes) .provides

/-- **The order of insertions does not matter.**  Two lists with the same entries lead to pools of
the same size and generation, with equal identities in the same places when sorted, and with the
same identities, origins, installed facets and locks, each equally often.  If no entry duplicates
another one, both pools also give the same associations, for every name and for
every requirement. -/
theorem insertion_order_irrelevant (config : PoolConfig) {entries others : List Entry}
    (hperm : entries.Perm others) :
    HoldsAlike ((empty config).after (insertions entries))
        ((empty config).after (insertions others)) ∧
      ((entries.Pairwise fun a b => ¬ a.Duplicates b) →
        AnswersAlike ((empty config).after (insertions entries))
          ((empty config).after (insertions others))) := by
  obtain ⟨roster, hstocks⟩ := exists_stocks_after config entries
  obtain ⟨roster', hstocks'⟩ := exists_stocks_after config others
  exact ⟨hstocks.holdsAlike hstocks' hperm, hstocks.answersAlike hstocks' hperm⟩

/-- An installed copy and an available one, and the available one with its edition written in
another way: of the two that are available, either stays.  The lock on the name covers all
of them. -/
theorem insertion_order_irrelevant_shell :
    let config : PoolConfig := { PoolConfig.default with locks := [.package "bash"] }
    let padded : Edition := ⟨0, "05.1", none, by decide⟩
    let again : Entry := ⟨{ PackageUnit.shell with
      resolvable := { PackageUnit.shell.resolvable with edition := padded } }, false⟩
    let copies : List Entry := [⟨.shell, true⟩, ⟨.shell, false⟩]
    Entry.Duplicates again ⟨.shell, false⟩ ∧
      HoldsAlike ((empty config).after (insertions (copies ++ [again])))
        ((empty config).after (insertions (again :: copies))) ∧
      AnswersAlike ((empty config).after (insertions copies))
        ((empty config).after (insertions copies.reverse)) := by
  intro config padded again copies
  have hdistinct : copies.Pairwise fun a b => ¬ a.Duplicates b := by
    refine List.pairwise_pair.2 fun hduplicates => ?_
    cases hduplicates.installed_eq
  refine ⟨⟨by decide, rfl, rfl⟩, ?_, ?_⟩
  · exact (insertion_order_irrelevant config (List.perm_append_singleton again copies)).1
  · exact (insertion_order_irrelevant config (List.reverse_perm copies).symm).2 hdistinct

end Pool

end PackagePool
