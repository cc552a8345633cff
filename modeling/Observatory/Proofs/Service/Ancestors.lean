import Mathlib.Data.Fintype.Card
import Mathlib.Data.List.Nodup
import Mathlib.Data.Nat.Find
import Mathlib.Logic.Relation
import Observatory.Proofs.Catalog.References
import Observatory.Proofs.Outcomes
import Observatory.Service.Hierarchy

/-! Ancestors.

The search for ancestors goes up round by round and keeps the ids it has seen. `Above` says
how many links an entity stands above the start, `Distance` that it does not stand nearer.
One round leads from the entities at one distance to those at the next (`Reached.next`), so
each round finds the entities at one distance (`Reached.rounds`), and the ancestors down to a
depth are what the rounds found, nearest first (`ancestorsOf_exact`), whatever circles the
links run in. Every round but the last finds an id that was not seen, so the search ends by
itself. -/
namespace Observatory.Hierarchy

/-! ### Links -/

section Links
variable (c : Catalog) (dimension : Dimension) (start : Entity)

/-- A parent link that is followed: the entity names an id, other than that of the start, and
the parent is the first entity stored with it. -/
def Link (e parent : Entity) : Prop :=
  parent.id ≠ start.id ∧ ∃ id ∈ e.parents, c.StoredUnder dimension id parent

/-- What stands so many links above the start. -/
inductive Above : Nat → Entity → Prop
  | start : Above 0 start
  | link {n : Nat} {e parent : Entity} (h : Above n e) (hlink : Link c dimension start e parent) :
    Above (n + 1) parent

/-- What stands so many links above the start and not fewer. -/
structure Distance (n : Nat) (e : Entity) : Prop where
  above : Above c dimension start n e
  least : ∀ m < n, ¬ Above c dimension start m e

/-- How many ids there are in the table of a dimension. -/
def idCount : Nat := ((c.entities dimension).map (·.id)).toFinset.card

variable {c dimension start}

theorem Above.eq_start {e : Entity} (h : Above c dimension start 0 e) : e = start := by
  cases h
  rfl

theorem Above.stored {n : Nat} {e : Entity} (h : Above c dimension start (n + 1) e) :
    e.id ≠ start.id ∧ c.StoredUnder dimension e.id e := by
  cases h with
  | link _ hlink =>
    obtain ⟨hne, _, _, hstored⟩ := hlink
    exact ⟨hne, hstored.own⟩

/-- Entities above the start are told apart by their ids. -/
theorem Above.eq_of_id {m n : Nat} {x y : Entity} (hx : Above c dimension start m x)
    (hy : Above c dimension start n y) (h : x.id = y.id) : x = y := by
  cases m with
  | zero =>
    obtain rfl := hx.eq_start
    cases n with
    | zero => exact hy.eq_start.symm
    | succ n => exact absurd h.symm hy.stored.1
  | succ m =>
    cases n with
    | zero =>
      obtain rfl := hy.eq_start
      exact absurd h hx.stored.1
    | succ n =>
      have hfirst := hx.stored.2
      rw [h] at hfirst
      exact hfirst.unique hy.stored.2

/-- What stands above the start has a distance, no longer than any chain of links to it. -/
theorem Above.distance {n : Nat} {e : Entity} (h : Above c dimension start n e) :
    ∃ m ≤ n, Distance c dimension start m e := by
  classical
  have hex : ∃ m, Above c dimension start m e := ⟨n, h⟩
  exact ⟨Nat.find hex, Nat.find_min' hex h, Nat.find_spec hex, fun m hm => Nat.find_min hex hm⟩

theorem Distance.unique {m n : Nat} {e : Entity} (hm : Distance c dimension start m e)
    (hn : Distance c dimension start n e) : m = n := by
  rcases Nat.lt_trichotomy m n with hlt | heq | hlt
  · exact absurd hm.above (hn.least m hlt)
  · exact heq
  · exact absurd hn.above (hm.least n hlt)

/-- One round of links: the next distance is that of the entities that are linked to one at
this distance and are not seen yet. -/
theorem distance_succ_iff {k : Nat} {e : Entity} :
    Distance c dimension start (k + 1) e ↔
      (∃ x, Distance c dimension start k x ∧ Link c dimension start x e) ∧
        ∀ n ≤ k, ∀ y, Above c dimension start n y → y.id ≠ e.id := by
  constructor
  · intro h
    refine ⟨?_, fun n hn y hy hid => ?_⟩
    · obtain ⟨habove, hleast⟩ := h
      cases habove with
      | @link _ x _ hx hlink =>
        refine ⟨x, ⟨hx, fun m hm hnear => ?_⟩, hlink⟩
        exact hleast (m + 1) (by omega) (.link hnear hlink)
    · have hsame : y = e := hy.eq_of_id h.above hid
      exact h.least n (by omega) (hsame ▸ hy)
  · rintro ⟨⟨x, hx, hlink⟩, hseen⟩
    exact ⟨.link hx.above hlink, fun m hm hnear => hseen m (by omega) e hnear rfl⟩

/-- Below an entity at a distance there is one at every smaller distance. -/
theorem Distance.exists_of_le {m n : Nat} {e : Entity} (h : Distance c dimension start n e)
    (hle : m ≤ n) : ∃ x, Distance c dimension start m x := by
  induction n generalizing e with
  | zero => exact ⟨e, Nat.le_zero.mp hle ▸ h⟩
  | succ n ih =>
    rcases Nat.eq_or_lt_of_le hle with rfl | hlt
    · exact ⟨e, h⟩
    · obtain ⟨⟨x, hx, _⟩, _⟩ := distance_succ_iff.mp h
      exact ih hx (Nat.le_of_lt_succ hlt)

/-- What stands above the start has an id of the table. -/
theorem Above.id_mem {n : Nat} {e : Entity} (h : Above c dimension start (n + 1) e) :
    e.id ∈ ((c.entities dimension).map (·.id)).toFinset := by
  rw [List.mem_toFinset]
  exact List.mem_map_of_mem h.stored.2.mem

/-- Nothing is farther from the start than there are ids: there is an entity at every
distance on the way, each with an id of its own. -/
theorem Distance.le_idCount {n : Nat} {e : Entity} (h : Distance c dimension start n e) :
    n ≤ idCount c dimension := by
  have hway : ∀ m : Fin n, ∃ x, Distance c dimension start (m + 1) x :=
    fun m => h.exists_of_le m.isLt
  choose x hx using hway
  have hinjective : Function.Injective fun m => (x m).id := by
    intro l m hid
    have hsame : x l = x m := (hx l).above.eq_of_id (hx m).above hid
    have hdist : l.val + 1 = m.val + 1 := (hx l).unique (hsame ▸ hx m)
    exact Fin.ext (by omega)
  have hcard := Finset.card_le_card_of_injOn (s := Finset.univ) (fun m => (x m).id)
    (fun m _ => (hx m).above.id_mem) hinjective.injOn
  rwa [Finset.card_fin] at hcard

/-- The entities above the start are those that links lead to, one after the other. -/
theorem transGen_iff {e : Entity} :
    Relation.TransGen (Link c dimension start) start e ↔ ∃ n, Above c dimension start (n + 1) e := by
  constructor
  · intro h
    induction h with
    | single hlink => exact ⟨0, .link .start hlink⟩
    | tail _ hlink ih =>
      obtain ⟨n, hn⟩ := ih
      exact ⟨n + 1, .link hn hlink⟩
  · rintro ⟨n, h⟩
    induction n generalizing e with
    | zero =>
      cases h with
      | link hx hlink => exact .single (hx.eq_start ▸ hlink)
    | succ n ih =>
      cases h with
      | link hx hlink => exact .tail (ih hx) hlink

end Links

/-! ### What was not visited -/

section Fresh
variable {visited : List Id} {es : List Entity}

theorem mem_visited_fresh {id : Id} :
    id ∈ (fresh visited es).2 ↔ id ∈ visited ∨ ∃ e ∈ es, e.id = id := by
  induction es generalizing visited with
  | nil => simp [fresh]
  | cons e rest ih =>
    rw [fresh]
    split
    · next hseen =>
      rw [List.contains_iff_mem] at hseen
      rw [ih]
      constructor
      · rintro (h | ⟨x, hx, rfl⟩)
        · exact .inl h
        · exact .inr ⟨x, List.mem_cons_of_mem e hx, rfl⟩
      · rintro (h | ⟨x, hx, rfl⟩)
        · exact .inl h
        · rcases List.mem_cons.mp hx with rfl | hx
          · exact .inl hseen
          · exact .inr ⟨x, hx, rfl⟩
    · show id ∈ (fresh (e.id :: visited) rest).2 ↔ _
      rw [ih, List.mem_cons]
      constructor
      · rintro ((rfl | h) | ⟨x, hx, rfl⟩)
        · exact .inr ⟨e, List.mem_cons_self .., rfl⟩
        · exact .inl h
        · exact .inr ⟨x, List.mem_cons_of_mem e hx, rfl⟩
      · rintro (h | ⟨x, hx, rfl⟩)
        · exact .inl (.inr h)
        · rcases List.mem_cons.mp hx with rfl | hx
          · exact .inl (.inl rfl)
          · exact .inr ⟨x, hx, rfl⟩

theorem mem_of_mem_fresh {e : Entity} (h : e ∈ (fresh visited es).1) : e ∈ es ∧ e.id ∉ visited := by
  induction es generalizing visited with
  | nil => exact absurd h List.not_mem_nil
  | cons x rest ih =>
    rw [fresh] at h
    split at h
    · obtain ⟨hrest, hseen⟩ := ih h
      exact ⟨List.mem_cons_of_mem x hrest, hseen⟩
    · next hx =>
      rw [List.contains_iff_mem] at hx
      rcases List.mem_cons.mp h with rfl | h
      · exact ⟨List.mem_cons_self .., hx⟩
      · obtain ⟨hrest, hseen⟩ := ih h
        exact ⟨List.mem_cons_of_mem x hrest, fun hv => hseen (List.mem_cons_of_mem _ hv)⟩

/-- Of the entities with an id that was not visited one is kept. -/
theorem exists_mem_fresh {e : Entity} (he : e ∈ es) (hseen : e.id ∉ visited) :
    ∃ x ∈ (fresh visited es).1, x.id = e.id := by
  induction es generalizing visited with
  | nil => exact absurd he List.not_mem_nil
  | cons x rest ih =>
    rw [fresh]
    split
    · next hx =>
      rw [List.contains_iff_mem] at hx
      rcases List.mem_cons.mp he with rfl | he
      · exact absurd hx hseen
      · exact ih he hseen
    · show ∃ y ∈ x :: (fresh (x.id :: visited) rest).1, y.id = e.id
      by_cases hid : e.id = x.id
      · exact ⟨x, List.mem_cons_self .., hid.symm⟩
      · have he : e ∈ rest := (List.mem_cons.mp he).resolve_left fun h => hid (h ▸ rfl)
        obtain ⟨y, hy, hyid⟩ := ih he fun h => (List.mem_cons.mp h).elim hid hseen
        exact ⟨y, List.mem_cons_of_mem x hy, hyid⟩

theorem nodup_fresh : ((fresh visited es).1.map (·.id)).Nodup := by
  induction es generalizing visited with
  | nil => exact List.nodup_nil
  | cons e rest ih =>
    rw [fresh]
    split
    · exact ih
    · show (e.id :: (fresh (e.id :: visited) rest).1.map (·.id)).Nodup
      refine List.nodup_cons.mpr ⟨fun h => ?_, ih⟩
      obtain ⟨x, hx, hid⟩ := List.mem_map.mp h
      exact (mem_of_mem_fresh hx).2 (hid ▸ List.mem_cons_self ..)

end Fresh

/-! ### Rounds -/

variable (c : Catalog) (dimension : Dimension)

/-- The parents that are stored, in the order in which they are named. -/
def parentsIn (e : Entity) : List Entity := e.parents.filterMap (c.entity? dimension)

/-- A catalog fails on a missing entity only, and that is left out. -/
theorem ifFound_store (id : Id) :
    ifFound (c.store.findEntity dimension id) = .ok (c.entity? dimension id) := by
  show ifFound (found (.noEntity dimension id) (c.entity? dimension id)) = _
  cases c.entity? dimension id <;> rfl

theorem loadParents_store (e : Entity) :
    loadParents c.store dimension e = .ok (parentsIn c dimension e) := by
  unfold loadParents parentsIn
  rw [Outcomes.mapM_ok fun id _ => ifFound_store c dimension id]
  show Except.ok ((e.parents.map (c.entity? dimension)).filterMap id) = _
  rw [List.filterMap_map]
  rfl

theorem nextLevel_store (level : List Entity) (visited : List Id) :
    nextLevel c.store dimension level visited =
      .ok (fresh visited (level.flatMap (parentsIn c dimension))) := by
  unfold nextLevel
  rw [Outcomes.mapM_ok fun e _ => loadParents_store c dimension e]
  rfl

/-- What is known when a level is reached: it holds the entities at its distance, each once,
and the visited ids are those of all that stand no farther. -/
structure Reached (start : Entity) (k : Nat) (level : List Entity) (visited : List Id) : Prop where
  mem_level : ∀ e, e ∈ level ↔ Distance c dimension start k e
  nodup : (level.map (·.id)).Nodup
  mem_visited : ∀ id, id ∈ visited ↔ ∃ n ≤ k, ∃ e, Above c dimension start n e ∧ e.id = id

variable {c dimension}

theorem mem_parentsIn {e parent : Entity} :
    parent ∈ parentsIn c dimension e ↔ ∃ id ∈ e.parents, c.StoredUnder dimension id parent := by
  simp only [parentsIn, List.mem_filterMap, Catalog.entity?_eq_some_iff]

theorem reached_start (start : Entity) : Reached c dimension start 0 [start] [start.id] where
  mem_level e := by
    rw [List.mem_singleton]
    constructor
    · rintro rfl
      exact ⟨.start, fun m hm => absurd hm (Nat.not_lt_zero m)⟩
    · intro h
      exact h.above.eq_start
  nodup := List.nodup_singleton _
  mem_visited id := by
    rw [List.mem_singleton]
    constructor
    · rintro rfl
      exact ⟨0, Nat.le_refl 0, start, .start, rfl⟩
    · rintro ⟨n, hn, e, he, rfl⟩
      obtain rfl := Nat.le_zero.mp hn
      rw [he.eq_start]

section Round
variable {start : Entity} {k : Nat} {level : List Entity} {visited : List Id}
  (h : Reached c dimension start k level visited)
include h

/-- The id of the start was visited, so a parent that was not is linked. -/
theorem Reached.mem_parents_iff {e : Entity} (hseen : e.id ∉ visited) :
    e ∈ level.flatMap (parentsIn c dimension) ↔
      ∃ x, Distance c dimension start k x ∧ Link c dimension start x e := by
  have hne : e.id ≠ start.id := fun hid =>
    hseen ((h.mem_visited e.id).mpr ⟨0, Nat.zero_le k, start, .start, hid.symm⟩)
  rw [List.mem_flatMap]
  refine exists_congr fun x => ?_
  rw [h.mem_level, mem_parentsIn, Link, and_iff_right hne]

theorem Reached.unseen_iff (e : Entity) :
    e.id ∉ visited ↔ ∀ n ≤ k, ∀ y, Above c dimension start n y → y.id ≠ e.id := by
  rw [h.mem_visited]
  constructor
  · intro hseen n hn y hy hid
    exact hseen ⟨n, hn, y, hy, hid⟩
  · rintro hseen ⟨n, hn, y, hy, hid⟩
    exact hseen n hn y hy hid

/-- The parents that were not visited are those at the next distance. -/
theorem Reached.mem_fresh_iff (e : Entity) :
    e ∈ (fresh visited (level.flatMap (parentsIn c dimension))).1 ↔
      Distance c dimension start (k + 1) e := by
  rw [distance_succ_iff, ← h.unseen_iff]
  constructor
  · intro he
    obtain ⟨hmem, hseen⟩ := mem_of_mem_fresh he
    exact ⟨(h.mem_parents_iff hseen).mp hmem, hseen⟩
  · rintro ⟨hlink, hseen⟩
    obtain ⟨x, hx, hid⟩ := exists_mem_fresh ((h.mem_parents_iff hseen).mpr hlink) hseen
    -- What was kept in its place is the entity itself.
    obtain ⟨hmem, hxseen⟩ := mem_of_mem_fresh hx
    obtain ⟨y, hy, hyx⟩ := (h.mem_parents_iff hxseen).mp hmem
    obtain ⟨z, hz, hze⟩ := hlink
    have hsame : x = e := (Above.link hy.above hyx).eq_of_id (.link hz.above hze) hid
    exact hsame ▸ hx

/-- **A round leads from one distance to the next.** -/
theorem Reached.next :
    Reached c dimension start (k + 1)
      (fresh visited (level.flatMap (parentsIn c dimension))).1
      (fresh visited (level.flatMap (parentsIn c dimension))).2 := by
  refine ⟨h.mem_fresh_iff, nodup_fresh, fun id => ?_⟩
  rw [mem_visited_fresh, h.mem_visited]
  constructor
  · rintro (⟨n, hn, e, he, hid⟩ | ⟨e, he, hid⟩)
    · exact ⟨n, by omega, e, he, hid⟩
    · by_cases hseen : e.id ∈ visited
      · obtain ⟨n, hn, y, hy, hyid⟩ := (h.mem_visited e.id).mp hseen
        exact ⟨n, by omega, y, hy, hyid.trans hid⟩
      · obtain ⟨x, hx, hlink⟩ := (h.mem_parents_iff hseen).mp he
        exact ⟨k + 1, Nat.le_refl _, e, .link hx.above hlink, hid⟩
  · rintro ⟨n, hn, e, he, hid⟩
    obtain ⟨m, hm, hdist⟩ := he.distance
    by_cases hfar : m ≤ k
    · exact .inl ⟨m, hfar, e, hdist.above, hid⟩
    · obtain rfl : m = k + 1 := by omega
      exact .inr ⟨e, (mem_of_mem_fresh ((h.mem_fresh_iff e).mpr hdist)).1, hid⟩

end Round

/-! ### The whole search -/

/-- **What one round can do**: find nothing and be the last, or find some and go on from there. -/
theorem roundsAbove_succ {store : Store} {depth : Nat} {level : List Entity} {visited : List Id}
    {rounds : List (List Entity)}
    (h : roundsAbove store dimension (depth + 1) level visited = .ok rounds) :
    ∃ next seen, nextLevel store dimension level visited = .ok (next, seen) ∧
      (next = [] ∧ rounds = [[]] ∨
        next ≠ [] ∧ ∃ rest, roundsAbove store dimension depth next seen = .ok rest ∧
          rounds = next :: rest) := by
  rw [roundsAbove] at h
  obtain ⟨⟨next, seen⟩, hnext, h⟩ := Outcomes.exists_of_bind_ok h
  refine ⟨next, seen, hnext, ?_⟩
  change (if next.isEmpty = true then _ else _) = _ at h
  split at h
  · next hempty =>
    obtain rfl := List.isEmpty_iff.mp hempty
    exact .inl ⟨rfl, (Except.ok.inj h).symm⟩
  · next hsome =>
    obtain ⟨rest, hrest, h⟩ := Outcomes.exists_of_bind_ok h
    exact .inr ⟨mt List.isEmpty_iff.mpr hsome, rest, hrest, (Except.ok.inj h).symm⟩

/-- The rounds of a search to a smaller depth are the first of those to a greater one. -/
theorem roundsAbove_mono {store : Store} {depth deeper : Nat} (hle : depth ≤ deeper)
    {level : List Entity} {visited : List Id} {rounds more : List (List Entity)}
    (hrounds : roundsAbove store dimension depth level visited = .ok rounds)
    (hmore : roundsAbove store dimension deeper level visited = .ok more) : rounds <+: more := by
  induction depth generalizing deeper level visited rounds more with
  | zero =>
    obtain rfl := Except.ok.inj hrounds
    exact List.nil_prefix
  | succ depth ih =>
    obtain ⟨deeper, rfl⟩ : ∃ d, deeper = d + 1 := ⟨deeper - 1, by omega⟩
    obtain ⟨next, seen, hnext, hcases⟩ := roundsAbove_succ hrounds
    obtain ⟨next', seen', hnext', hcases'⟩ := roundsAbove_succ hmore
    obtain ⟨rfl, rfl⟩ := Prod.mk.inj (Except.ok.inj (hnext.symm.trans hnext'))
    rcases hcases with ⟨rfl, rfl⟩ | ⟨hsome, rest, hrest, rfl⟩
    · rcases hcases' with ⟨_, rfl⟩ | ⟨hsome, _⟩
      · exact List.prefix_rfl
      · exact absurd rfl hsome
    · rcases hcases' with ⟨hempty, _⟩ | ⟨_, restDeep, hdeep, rfl⟩
      · exact absurd hempty hsome
      · exact (List.prefix_cons_inj next).mpr (ih (by omega) hrest hdeep)

/-- What a search found: the entities at some distances, each once, nearest first. -/
structure Found (c : Catalog) (dimension : Dimension) (start : Entity) (low high : Nat)
    (found : List Entity) : Prop where
  mem_iff : ∀ e, e ∈ found ↔ ∃ n, low < n ∧ n ≤ high ∧ Distance c dimension start n e
  nodup : (found.map (·.id)).Nodup
  nearest_first : found.Pairwise fun x y =>
    ∀ m n, Distance c dimension start m x → Distance c dimension start n y → m ≤ n

/-- A level before those that were found beyond it. -/
theorem Found.cons_level {start : Entity} {k high : Nat} {level : List Entity} {visited : List Id}
    (hlevel : Reached c dimension start (k + 1) level visited) (hhigh : k + 1 ≤ high)
    {found : List Entity} (h : Found c dimension start (k + 1) high found) :
    Found c dimension start k high (level ++ found) where
  mem_iff e := by
    rw [List.mem_append, hlevel.mem_level, h.mem_iff]
    constructor
    · rintro (he | ⟨n, hlow, hn, he⟩)
      · exact ⟨k + 1, by omega, hhigh, he⟩
      · exact ⟨n, by omega, hn, he⟩
    · rintro ⟨n, hlow, hn, he⟩
      rcases Nat.eq_or_lt_of_le hlow with rfl | hfar
      · exact .inl he
      · exact .inr ⟨n, hfar, hn, he⟩
  nodup := by
    rw [List.map_append, List.nodup_append]
    refine ⟨hlevel.nodup, h.nodup, fun id hid other hother heq => ?_⟩
    obtain ⟨x, hx, rfl⟩ := List.mem_map.mp hid
    obtain ⟨y, hy, rfl⟩ := List.mem_map.mp hother
    have hx := (hlevel.mem_level x).mp hx
    obtain ⟨n, hlow, _, hy⟩ := (h.mem_iff y).mp hy
    have hsame : x = y := hx.above.eq_of_id hy.above heq
    have hdist : k + 1 = n := hx.unique (hsame ▸ hy)
    omega
  nearest_first := by
    rw [List.pairwise_append]
    have hat : ∀ x ∈ level, ∀ m, Distance c dimension start m x → m = k + 1 :=
      fun x hx m hm => hm.unique ((hlevel.mem_level x).mp hx)
    refine ⟨List.pairwise_of_forall_mem_list fun x hx y hy m n hm hn => ?_, h.nearest_first,
      fun x hx y hy m n hm hn => ?_⟩
    · rw [hat x hx m hm, hat y hy n hn]
    · obtain ⟨l, hlow, _, hl⟩ := (h.mem_iff y).mp hy
      rw [hat x hx m hm, hn.unique hl]
      omega

/-- The rounds of a search from a distance on: each finds the entities at the next distance, and
they are one more than the entities at most, for none but the last is empty. -/
structure Rounds (c : Catalog) (dimension : Dimension) (start : Entity) (low high : Nat)
    (rounds : List (List Entity)) : Prop where
  found : Found c dimension start low high rounds.flatten
  mem_round : ∀ k found, rounds[k]? = some found →
    ∀ e, e ∈ found ↔ Distance c dimension start (low + (k + 1)) e
  length_le : rounds.length ≤ rounds.flatten.length + 1

/-- A search to no depth finds nothing. -/
theorem rounds_nil {start : Entity} {k : Nat} : Rounds c dimension start k k [] where
  found := by
    refine ⟨fun e => ⟨fun he => absurd he List.not_mem_nil, ?_⟩, List.nodup_nil, .nil⟩
    rintro ⟨n, hlow, hhigh, _⟩
    omega
  mem_round k found h := nomatch h
  length_le := Nat.zero_le _

/-- With nothing at the next distance there is nothing beyond it. -/
theorem rounds_last {start : Entity} {k high : Nat} {visited : List Id}
    (h : Reached c dimension start (k + 1) [] visited) : Rounds c dimension start k high [[]] where
  found := by
    refine ⟨fun e => ⟨fun he => absurd he List.not_mem_nil, ?_⟩, List.nodup_nil, .nil⟩
    rintro ⟨n, hlow, _, he⟩
    obtain ⟨x, hx⟩ := he.exists_of_le hlow
    exact absurd ((h.mem_level x).mpr hx) List.not_mem_nil
  mem_round i found hi e := by
    obtain ⟨rfl, rfl⟩ : i = 0 ∧ [] = found := by
      cases i with
      | zero => exact ⟨rfl, Option.some.inj hi⟩
      | succ i => exact nomatch hi
    exact h.mem_level e
  length_le := Nat.le_refl _

/-- A round that finds something before those beyond it. -/
theorem Rounds.cons {start : Entity} {k high : Nat} {level : List Entity} {visited : List Id}
    (hlevel : Reached c dimension start (k + 1) level visited) (hsome : level ≠ [])
    (hhigh : k + 1 ≤ high) {rounds : List (List Entity)}
    (h : Rounds c dimension start (k + 1) high rounds) :
    Rounds c dimension start k high (level :: rounds) where
  found := h.found.cons_level hlevel hhigh
  mem_round i found hi e := by
    cases i with
    | zero =>
      obtain rfl := Option.some.inj hi
      exact hlevel.mem_level e
    | succ i =>
      rw [h.mem_round i found hi e, show k + 1 + (i + 1) = k + (i + 1 + 1) by omega]
  length_le := by
    have hpos : 0 < level.length := List.length_pos_iff.mpr hsome
    have hle := h.length_le
    rw [List.flatten_cons, List.length_append, List.length_cons]
    omega

/-- **From a level on, every round of a search finds what stands at the next distance.** -/
theorem Reached.rounds {start : Entity} {k : Nat} {level : List Entity} {visited : List Id}
    (h : Reached c dimension start k level visited) (depth : Nat) :
    ∃ rounds, roundsAbove c.store dimension depth level visited = .ok rounds ∧
      Rounds c dimension start k (k + depth) rounds := by
  induction depth generalizing k level visited with
  | zero => exact ⟨[], rfl, rounds_nil⟩
  | succ depth ih =>
    have hnext := h.next
    rw [roundsAbove, nextLevel_store]
    generalize fresh visited (level.flatMap (parentsIn c dimension)) = pair at hnext ⊢
    obtain ⟨next, visited⟩ := pair
    change ∃ rounds, (if next.isEmpty = true then _ else _) = _ ∧ _
    split
    · next hempty =>
      obtain rfl := List.isEmpty_iff.mp hempty
      exact ⟨[[]], rfl, rounds_last hnext⟩
    · next hempty =>
      obtain ⟨rounds, hrounds, hfound⟩ := ih hnext
      rw [show k + 1 + depth = k + (depth + 1) by omega] at hfound
      rw [hrounds]
      exact ⟨next :: rounds, rfl, hfound.cons hnext (mt List.isEmpty_iff.mpr hempty) (by omega)⟩

/-- No more entities are found than there are ids. -/
theorem Found.length_le {start : Entity} {low high : Nat} {found : List Entity}
    (h : Found c dimension start low high found) : found.length ≤ idCount c dimension := by
  have hsub : (found.map (·.id)).toFinset ⊆ ((c.entities dimension).map (·.id)).toFinset := by
    intro id hid
    obtain ⟨e, he, rfl⟩ := List.mem_map.mp (List.mem_toFinset.mp hid)
    obtain ⟨n, hlow, _, hn⟩ := (h.mem_iff e).mp he
    obtain ⟨n, rfl⟩ : ∃ m, n = m + 1 := ⟨n - 1, by omega⟩
    exact hn.above.id_mem
  have hcard := Finset.card_le_card hsub
  rwa [List.toFinset_card_of_nodup h.nodup, List.length_map] at hcard

/-- From as many levels on as there are ids a search finds all that stands above. -/
theorem Found.mem_iff_transGen {start : Entity} {depth : Nat} {found : List Entity}
    (h : Found c dimension start 0 depth found) (hcount : idCount c dimension ≤ depth) {e : Entity} :
    e ∈ found ↔ Relation.TransGen (Link c dimension start) start e := by
  rw [h.mem_iff, transGen_iff]
  constructor
  · rintro ⟨n, hlow, _, hn⟩
    obtain ⟨n, rfl⟩ : ∃ m, n = m + 1 := ⟨n - 1, by omega⟩
    exact ⟨n, hn.above⟩
  · rintro ⟨n, hn⟩
    obtain ⟨m, _, hm⟩ := hn.distance
    refine ⟨m, Nat.pos_of_ne_zero fun hzero => ?_, Nat.le_trans hm.le_idCount hcount, hm⟩
    subst hzero
    exact hn.stored.1 (hm.above.eq_start ▸ rfl)

/-- Nothing is added to a search that found all that stands above. -/
theorem Found.eq_nil_of_append {start : Entity} {depth deeper : Nat} {found more : List Entity}
    (h : Found c dimension start 0 depth found) (hcount : idCount c dimension ≤ depth)
    (hmore : Found c dimension start 0 deeper (found ++ more)) : more = [] := by
  rw [List.eq_nil_iff_forall_not_mem]
  intro e he
  obtain ⟨n, hlow, _, hn⟩ := (hmore.mem_iff e).mp (List.mem_append_right found he)
  have hbefore : e ∈ found := (h.mem_iff e).mpr ⟨n, hlow, Nat.le_trans hn.le_idCount hcount, hn⟩
  have hnodup := hmore.nodup
  rw [List.map_append, List.nodup_append] at hnodup
  exact hnodup.2.2 e.id (List.mem_map_of_mem hbefore) e.id (List.mem_map_of_mem he) rfl

/-- A search to a depth: it never fails. -/
theorem ancestorsOf_rounds (c : Catalog) (dimension : Dimension) (start : Entity) (depth : Nat) :
    ∃ rounds, roundsAbove c.store dimension depth [start] [start.id] = .ok rounds ∧
      ancestorsOf c.store depth dimension start = .ok rounds.flatten ∧
      Rounds c dimension start 0 depth rounds := by
  obtain ⟨rounds, hrun, hrounds⟩ := (reached_start start).rounds depth
  rw [Nat.zero_add] at hrounds
  refine ⟨rounds, hrun, ?_, hrounds⟩
  unfold ancestorsOf
  rw [hrun]
  rfl

/-- **The ancestors of an entity are what stands above it down to a depth**: the search never
fails and lists every entity at a distance of one link up to that many, each once, nearest
first. A greater depth only adds to the end of the list. From as many levels on as there
are ids the list is complete. The list is what the rounds of the search found, one distance
in each; there are no more rounds than ids and one, however great the depth. -/
theorem ancestorsOf_exact (c : Catalog) (dimension : Dimension) (start : Entity) (depth : Nat) :
    ∃ found rounds,
      ancestorsOf c.store depth dimension start = .ok found ∧
      (∀ e, e ∈ found ↔
        e.id ≠ start.id ∧ ∃ n, 1 ≤ n ∧ n ≤ depth ∧ Distance c dimension start n e) ∧
      (found.map (·.id)).Nodup ∧
      (found.Pairwise fun x y =>
        ∀ m n, Distance c dimension start m x → Distance c dimension start n y → m ≤ n) ∧
      (∀ deeper, depth ≤ deeper →
        ∃ more, ancestorsOf c.store deeper dimension start = .ok (found ++ more)) ∧
      (idCount c dimension ≤ depth →
        (∀ deeper, depth ≤ deeper → ancestorsOf c.store deeper dimension start = .ok found) ∧
        ∀ e, e ∈ found ↔ Relation.TransGen (Link c dimension start) start e) ∧
      roundsAbove c.store dimension depth [start] [start.id] = .ok rounds ∧
      rounds.flatten = found ∧
      (∀ k level, rounds[k]? = some level → ∀ e, e ∈ level ↔ Distance c dimension start (k + 1) e) ∧
      rounds.length ≤ idCount c dimension + 1 := by
  obtain ⟨rounds, hrun, hok, hrounds⟩ := ancestorsOf_rounds c dimension start depth
  have hfound := hrounds.found
  have hdeeper : ∀ deeper, depth ≤ deeper → ∃ more,
      ancestorsOf c.store deeper dimension start = .ok (rounds.flatten ++ more) ∧
        Found c dimension start 0 deeper (rounds.flatten ++ more) := by
    intro deeper hle
    obtain ⟨all, hrunAll, hall, hroundsAll⟩ := ancestorsOf_rounds c dimension start deeper
    obtain ⟨more, hmore⟩ := (roundsAbove_mono hle hrun hrunAll).flatten
    exact ⟨more, hmore ▸ hall, hmore ▸ hroundsAll.found⟩
  refine ⟨rounds.flatten, rounds, hok, fun e => ?_, hfound.nodup, hfound.nearest_first,
    fun deeper hle => ?_, fun hcount => ⟨fun deeper hle => ?_, fun e => ?_⟩, hrun, rfl,
    fun k level hlevel e => ?_, ?_⟩
  · rw [hfound.mem_iff]
    constructor
    · rintro ⟨n, hlow, hhigh, hn⟩
      obtain ⟨n, rfl⟩ : ∃ m, n = m + 1 := ⟨n - 1, by omega⟩
      exact ⟨hn.above.stored.1, n + 1, hlow, hhigh, hn⟩
    · rintro ⟨_, n, hlow, hhigh, hn⟩
      exact ⟨n, hlow, hhigh, hn⟩
  · obtain ⟨more, hmore, _⟩ := hdeeper deeper hle
    exact ⟨more, hmore⟩
  · obtain ⟨more, hmore, hfoundAll⟩ := hdeeper deeper hle
    rw [hmore, hfound.eq_nil_of_append hcount hfoundAll, List.append_nil]
  · exact hfound.mem_iff_transGen hcount
  · rw [hrounds.mem_round k level hlevel e, Nat.zero_add]
  · exact Nat.le_trans hrounds.length_le (Nat.succ_le_succ hfound.length_le)

end Observatory.Hierarchy
