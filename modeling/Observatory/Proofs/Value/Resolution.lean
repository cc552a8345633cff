import Mathlib.Data.Finset.Card
import Observatory.Proofs.Catalog.Records
import Observatory.Proofs.Collection.SortedSet
import Observatory.Value.Registry

/-! Runs of a registry.

A registry is asked for converters, for what it knows and for its value kinds, in any order.
What it answers depends on its table alone; what it keeps are the converters that it handed
out, one for each key (`Kept`). Every call preserves this (`Kept.perform`), so it holds after
any run (`kept_after`), and `resolution_of_run` reads off what a caller can rely on. -/
namespace Observatory.Registry

/-! ### Look-ups -/

section Find
variable {r : Registry} {key : TypeKey} {c : Converter}

/-- The value found for a key stands where the key is found. -/
theorem lookup_eq_getElem? {κ ν : Type} [BEq κ] [LawfulBEq κ] (entries : List (κ × ν)) (k : κ) :
    entries.lookup k =
      (entries.findIdx? fun entry => entry.1 == k).bind fun i => entries[i]?.map (·.2) := by
  induction entries with
  | nil => rfl
  | cons entry rest ih =>
    rw [List.lookup_cons, List.findIdx?_cons]
    by_cases h : entry.1 = k
    · rw [beq_iff_eq.mpr h, beq_iff_eq.mpr h.symm]
      rfl
    · rw [beq_eq_false_iff_ne.mpr h, beq_eq_false_iff_ne.mpr (Ne.symm h), ih, if_neg Bool.false_ne_true,
        Option.bind_map]
      rfl

/-- A converter is found for a key where it was made for the key. -/
theorem find?_eq_some_iff : r.find? key = some c ↔ r.made[c.number]? = some (key, c.kind) := by
  have hfind : r.find? key = some c ↔
      r.made.findIdx? (fun entry => entry.1 == key) = some c.number ∧
        r.made.lookup key = some c.kind := by
    unfold find?
    split
    · next number kind hnumber hkind =>
      rw [hnumber, hkind]
      obtain ⟨n, k⟩ := c
      simp only [Option.some.injEq, Converter.mk.injEq]
    · next hnone =>
      refine ⟨fun h => absurd h (by simp), fun h => ?_⟩
      exact absurd h.2 (hnone c.number c.kind h.1)
  rw [hfind, lookup_eq_getElem?]
  constructor
  · rintro ⟨hnumber, hkind⟩
    obtain ⟨hlt, hkey, _⟩ := List.findIdx?_eq_some_iff_getElem.mp hnumber
    rw [hnumber, Option.bind_some, List.getElem?_eq_getElem hlt, Option.map_some] at hkind
    rw [List.getElem?_eq_getElem hlt]
    exact congrArg some (Prod.ext (eq_of_beq hkey) (Option.some.inj hkind))
  · intro h
    obtain ⟨hlt, hentry⟩ := List.getElem?_eq_some_iff.mp h
    have hnumber : r.made.findIdx? (fun entry => entry.1 == key) = some c.number := by
      refine List.findIdx?_eq_some_iff_getElem.mpr ⟨hlt, ?_, fun j hj => ?_⟩
      · rw [hentry]
        exact beq_self_eq_true key
      · -- The key stands in one place only.
        intro hkey
        have hj : j < (r.made.map (·.1)).length := by rw [List.length_map]; omega
        have hnumber : c.number < (r.made.map (·.1)).length := by rw [List.length_map]; exact hlt
        have hsame : (r.made.map (·.1))[j] = (r.made.map (·.1))[c.number] := by
          rw [List.getElem_map, List.getElem_map, hentry]
          exact eq_of_beq hkey
        have hplace := r.made_once.getElem_inj_iff.mp hsame
        omega
    refine ⟨hnumber, ?_⟩
    rw [hnumber, Option.bind_some, h]
    rfl

theorem exists_find?_iff : (∃ c, r.find? key = some c) ↔ key ∈ r.made.map (·.1) := by
  constructor
  · rintro ⟨c, hc⟩
    exact List.mem_map.mpr ⟨_, List.mem_of_getElem? (find?_eq_some_iff.mp hc), rfl⟩
  · intro h
    obtain ⟨⟨key, kind⟩, hentry, rfl⟩ := List.mem_map.mp h
    obtain ⟨number, hnumber⟩ := List.mem_iff_getElem?.mp hentry
    exact ⟨⟨number, kind⟩, find?_eq_some_iff.mpr hnumber⟩

/-- A converter that was made is of the kind that the table gives for its key. -/
theorem kindInTable?_of_find? (h : r.find? key = some c) :
    kindInTable? r.table key = some c.kind :=
  r.made_of_table _ (List.mem_of_getElem? (find?_eq_some_iff.mp h))

/-- **What a look-up can do**: hand out the converter made before, make one of the kind that
the table gives, or fail and leave everything as it was. -/
theorem resolve_cases (r : Registry) (key : TypeKey) :
    (∃ c, r.find? key = some c ∧ r.resolve key = (.ok c, r)) ∨
    (∃ kind after, key ∉ r.made.map (·.1) ∧ kindInTable? r.table key = some kind ∧
      r.resolve key = (.ok ⟨r.made.length, kind⟩, after) ∧
      after.table = r.table ∧ after.made = r.made ++ [(key, kind)]) ∨
    (key ∉ r.made.map (·.1) ∧ kindInTable? r.table key = none ∧
      r.resolve key = (.error (.unknownType key.text), r)) := by
  unfold resolve
  split
  · next c hc => exact .inl ⟨c, hc, rfl⟩
  · next hnone =>
    have hfresh := not_mem_of_find?_eq_none hnone
    split
    · next kind hkind => exact .inr (.inl ⟨kind, _, hfresh, hkind, rfl, rfl, rfl⟩)
    · next hkind => exact .inr (.inr ⟨hfresh, hkind, rfl⟩)

/-- A look-up answers by the table, whatever was asked before. -/
theorem resolve_ok_iff : (∃ c, (r.resolve key).1 = .ok c) ↔ (kindInTable? r.table key).isSome := by
  rcases r.resolve_cases key with
    ⟨c, hc, hresolve⟩ | ⟨kind, after, _, hkind, hresolve, _⟩ | ⟨_, hkind, hresolve⟩
  · rw [hresolve, kindInTable?_of_find? hc]
    exact ⟨fun _ => rfl, fun _ => ⟨c, rfl⟩⟩
  · rw [hresolve, hkind]
    exact ⟨fun _ => rfl, fun _ => ⟨_, rfl⟩⟩
  · rw [hresolve, hkind]
    exact ⟨fun ⟨_, h⟩ => (nomatch h), fun h => (nomatch h)⟩

theorem resolve_eq_error (h : kindInTable? r.table key = none) :
    r.resolve key = (.error (.unknownType key.text), r) := by
  rcases r.resolve_cases key with ⟨c, hc, _⟩ | ⟨kind, after, _, hkind, _⟩ | ⟨_, _, hresolve⟩
  · exact absurd (kindInTable?_of_find? hc) (by simp [h])
  · exact absurd hkind (by simp [h])
  · exact hresolve

theorem kind_of_resolve (h : (r.resolve key).1 = .ok c) : kindInTable? r.table key = some c.kind := by
  rcases r.resolve_cases key with
    ⟨made, hmade, hresolve⟩ | ⟨kind, after, _, hkind, hresolve, _⟩ | ⟨_, _, hresolve⟩
  · rw [hresolve] at h
    obtain rfl := Except.ok.inj h
    exact kindInTable?_of_find? hmade
  · rw [hresolve] at h
    obtain rfl := Except.ok.inj h
    exact hkind
  · rw [hresolve] at h
    exact nomatch h

theorem isKnown_eq : r.isKnown key = (kindInTable? r.table key).isSome := by
  unfold isKnown
  cases hfind : r.find? key with
  | none => rfl
  | some c => rw [kindInTable?_of_find? hfind]; rfl

end Find

/-- A table has a kind for a key if one of its rows has the key. -/
theorem isSome_kindInTable?_iff {table : List Descriptor} {key : TypeKey} :
    (kindInTable? table key).isSome ↔ ∃ row ∈ table, row.key = key.text := by
  unfold kindInTable?
  rw [Option.isSome_map, List.find?_isSome]
  simp only [beq_iff_eq]

/-- The kind that a table gives for a key: that of the first row with the key. -/
def Gives (table : List Descriptor) (key : TypeKey) (kind : ValueKind) : Prop :=
  ∃ row, Records.IsFirst (·.key) key.text table row ∧ row.valueKind = kind

theorem kindInTable?_eq_some_iff {table : List Descriptor} {key : TypeKey} {kind : ValueKind} :
    kindInTable? table key = some kind ↔ Gives table key kind := by
  unfold kindInTable? Gives
  rw [Option.map_eq_some_iff]
  simp only [Records.find?_eq_some_iff]

theorem Gives.unique {table : List Descriptor} {key : TypeKey} {kind other : ValueKind}
    (h : Gives table key kind) (h' : Gives table key other) : kind = other := by
  rw [← kindInTable?_eq_some_iff] at h h'
  exact Option.some.inj (h.symm.trans h')

/-- The converter that is handed out for a key is of the kind that the table gives. -/
theorem resolve_of_gives {r : Registry} {key : TypeKey} {kind : ValueKind}
    (h : Gives r.table key kind) : ∃ c, (r.resolve key).1 = .ok c ∧ c.kind = kind := by
  rw [← kindInTable?_eq_some_iff] at h
  obtain ⟨c, hc⟩ := resolve_ok_iff.mpr (by rw [h]; rfl)
  exact ⟨c, hc, Option.some.inj ((kind_of_resolve hc).symm.trans h)⟩

/-- A key that stands in no row is reported. -/
theorem resolve_of_no_row {r : Registry} {key : TypeKey}
    (h : ∀ row ∈ r.table, row.key ≠ key.text) :
    r.resolve key = (.error (.unknownType key.text), r) := by
  refine resolve_eq_error (Option.not_isSome_iff_eq_none.mp fun hsome => ?_)
  obtain ⟨row, hrow, hkey⟩ := isSome_kindInTable?_iff.mp hsome
  exact h row hrow hkey

/-- A table gives a kind for a key, or no row has the key. -/
theorem gives_or_no_row (table : List Descriptor) (key : TypeKey) :
    (∃ kind, Gives table key kind) ∨ ∀ row ∈ table, row.key ≠ key.text := by
  by_cases h : ∃ row ∈ table, row.key = key.text
  · obtain ⟨row, hrow⟩ := Records.exists_isFirst_iff.mpr h
    exact .inl ⟨row.valueKind, row, hrow, rfl⟩
  · exact .inr fun row hrow hkey => h ⟨row, hrow, hkey⟩

/-! ### Runs -/

/-- What a registry is asked. -/
inductive Call where
  | resolve (datasetKind observationKind valueKind : String)
  | resolveFor (d : Dataset)
  | isKnown (datasetKind observationKind valueKind : String)
  | knownTypes

/-- What it answers. -/
inductive Answer where
  | converter (outcome : Except Error Converter)
  | known (known : Bool)
  | types (kinds : SortedSet String)

/-- The answer to a call with the registry after it. -/
def perform (r : Registry) : Call → Answer × Registry
  | .resolve dataset observation value =>
    let (outcome, after) := r.resolve (.derive dataset observation value)
    (.converter outcome, after)
  | .resolveFor d =>
    let (outcome, after) := r.resolve (.ofDataset d)
    (.converter outcome, after)
  | .isKnown dataset observation value => (.known (r.isKnown (.derive dataset observation value)), r)
  | .knownTypes => (.types r.knownTypes, r)

/-- The registry after calls. -/
def after (r : Registry) (calls : List Call) : Registry :=
  calls.foldl (fun r call => (r.perform call).2) r

/-- The key that a call asks a converter for. -/
def Call.key? : Call → Option TypeKey
  | resolve dataset observation value => some (.derive dataset observation value)
  | resolveFor d => some (.ofDataset d)
  | _ => none

/-- The converter that an answer hands out, with the key it was asked for. -/
def handedOut : Option TypeKey → Answer → Option (TypeKey × Converter)
  | some key, .converter (.ok c) => some (key, c)
  | _, _ => none

/-- The converters that calls hand out, with their keys. -/
def given (r : Registry) : List Call → List (TypeKey × Converter)
  | [] => []
  | call :: rest =>
    (handedOut call.key? (r.perform call).1).toList ++ (r.perform call).2.given rest

/-- What a registry keeps of a run: it still finds whatever it handed out, and nothing else
was made. -/
structure Kept (table : List Descriptor) (given : List (TypeKey × Converter)) (r : Registry) :
    Prop where
  table : r.table = table
  found : ∀ pair ∈ given, r.find? pair.1 = some pair.2
  made : ∀ key ∈ r.made.map (·.1), key ∈ given.map (·.1)

theorem kept_ofTable (table : List Descriptor) (noData : NoData) :
    Kept table [] (ofTable table noData) where
  table := rfl
  found _ h := absurd h List.not_mem_nil
  made _ h := absurd h List.not_mem_nil

section Kept
variable {table : List Descriptor} {known : List (TypeKey × Converter)} {r : Registry}

/-- A look-up adds what it hands out to what is kept. -/
theorem Kept.resolve (h : Kept table known r) (key : TypeKey) :
    Kept table (known ++ (handedOut (some key) (.converter (r.resolve key).1)).toList)
      (r.resolve key).2 := by
  rcases r.resolve_cases key with
    ⟨c, hc, hresolve⟩ | ⟨kind, after, hfresh, hkind, hresolve, htable, hmade⟩ | ⟨_, _, hresolve⟩
  · rw [hresolve]
    refine ⟨h.table, fun pair hpair => ?_, fun k hk => ?_⟩
    · rcases List.mem_append.mp hpair with hpair | hpair
      · exact h.found pair hpair
      · obtain rfl := List.mem_singleton.mp hpair
        exact hc
    · rw [List.map_append]
      exact List.mem_append_left _ (h.made k hk)
  · rw [hresolve]
    -- Converters made before stay in their places.
    refine ⟨htable.trans h.table, fun pair hpair => ?_, fun k hk => ?_⟩
    · rw [find?_eq_some_iff, hmade]
      rcases List.mem_append.mp hpair with hpair | hpair
      · have hold := find?_eq_some_iff.mp (h.found pair hpair)
        rw [List.getElem?_append_left (List.getElem?_eq_some_iff.mp hold).1]
        exact hold
      · obtain rfl := List.mem_singleton.mp hpair
        exact List.getElem?_concat_length
    · rw [hmade, List.map_append] at hk
      rw [List.map_append]
      rcases List.mem_append.mp hk with hk | hk
      · exact List.mem_append_left _ (h.made k hk)
      · exact List.mem_append_right _ hk
  · rw [hresolve]
    show Kept table (known ++ []) r
    rw [List.append_nil]
    exact h

/-- **Every call adds what it hands out to what is kept.** -/
theorem Kept.perform (h : Kept table known r) (call : Call) :
    Kept table (known ++ (handedOut call.key? (r.perform call).1).toList) (r.perform call).2 := by
  have hnothing : Kept table (known ++ []) r := (List.append_nil known).symm ▸ h
  cases call with
  | resolve dataset observation value => exact h.resolve (.derive dataset observation value)
  | resolveFor d => exact h.resolve (.ofDataset d)
  | isKnown dataset observation value => exact hnothing
  | knownTypes => exact hnothing

theorem Kept.after (h : Kept table known r) (calls : List Call) :
    Kept table (known ++ r.given calls) (r.after calls) := by
  induction calls generalizing known r with
  | nil =>
    show Kept table (known ++ []) r
    rw [List.append_nil]
    exact h
  | cons call rest ih =>
    have hrest := ih (h.perform call)
    rw [List.append_assoc] at hrest
    exact hrest

/-- Converters that were handed out are told apart by their numbers as they are by their keys. -/
theorem Kept.number_iff (h : Kept table known r) {first second : TypeKey × Converter}
    (hfirst : first ∈ known) (hsecond : second ∈ known) :
    (first.2.number = second.2.number ↔ first.1 = second.1) ∧
      (first.1 = second.1 → first.2 = second.2) := by
  have h₁ := h.found first hfirst
  have h₂ := h.found second hsecond
  have hsame : first.1 = second.1 → first.2 = second.2 := by
    intro hkey
    rw [hkey, h₂] at h₁
    exact (Option.some.inj h₁).symm
  refine ⟨⟨fun hnumber => ?_, fun hkey => congrArg Converter.number (hsame hkey)⟩, hsame⟩
  have hplace := find?_eq_some_iff.mp h₁
  rw [hnumber, find?_eq_some_iff.mp h₂] at hplace
  exact (congrArg Prod.fst (Option.some.inj hplace)).symm

/-- As many converters are kept as there are keys with one. -/
theorem Kept.cached_eq (h : Kept table known r) : r.cached = (known.map (·.1)).toFinset.card := by
  have hkeys : (r.made.map (·.1)).toFinset = (known.map (·.1)).toFinset := by
    ext key
    rw [List.mem_toFinset, List.mem_toFinset]
    refine ⟨h.made key, fun hkey => ?_⟩
    obtain ⟨pair, hpair, rfl⟩ := List.mem_map.mp hkey
    exact exists_find?_iff.mp ⟨pair.2, h.found pair hpair⟩
  rw [← hkeys, List.toFinset_card_of_nodup r.made_once, List.length_map]
  rfl

end Kept

/-- What a run from an empty registry leaves. -/
theorem kept_after (table : List Descriptor) (noData : NoData) (calls : List Call) :
    Kept table ((ofTable table noData).given calls) ((ofTable table noData).after calls) := by
  have h := (kept_ofTable table noData).after calls
  rwa [List.nil_append] at h

/-- **What callers of a registry can rely on**, after any calls. A look-up succeeds exactly if
a row of the table has the key, with the kind of the first such row; else it names the key
and changes nothing. What is known is what a look-up would find; asking changes nothing. Two
converters handed out are one exactly if their keys are equal, and as many are kept as keys
were looked up successfully. The value kind that a found key starts with is listed. -/
theorem resolution_of_run (table : List Descriptor) (noData : NoData) (calls : List Call) :
    let r := (ofTable table noData).after calls
    let given := (ofTable table noData).given calls
    (∀ dataset observation value,
      let key := TypeKey.derive dataset observation value
      let lookup := r.perform (.resolve dataset observation value)
      ((∃ c, lookup.1 = .converter (.ok c)) ↔ ∃ row ∈ table, row.key = key.text) ∧
      (∀ c, lookup.1 = .converter (.ok c) →
        (table.find? (·.key == key.text)).map (·.valueKind) = some c.kind ∧
        key.base ∈ r.knownTypes) ∧
      ((¬ ∃ row ∈ table, row.key = key.text) →
        lookup = (.converter (.error (.unknownType key.text)), r)) ∧
      ((r.perform (.isKnown dataset observation value)).1 = .known true ↔
        ∃ c, lookup.1 = .converter (.ok c)) ∧
      (r.perform (.isKnown dataset observation value)).2 = r) ∧
    (∀ d, r.perform (.resolveFor d) =
      r.perform (.resolve d.datasetKind d.observationKind d.valueKind)) ∧
    r.perform .knownTypes = (.types r.knownTypes, r) ∧
    (∀ first ∈ given, ∀ second ∈ given,
      (first.2.number = second.2.number ↔ first.1 = second.1) ∧
      (first.1 = second.1 → first.2 = second.2)) ∧
    r.cached = (given.map (·.1)).toFinset.card := by
  intro r given
  have hkept : Kept table given r := kept_after table noData calls
  refine ⟨fun dataset observation value => ?_, fun d => rfl, rfl,
    fun first hfirst second hsecond => hkept.number_iff hfirst hsecond, hkept.cached_eq⟩
  intro key lookup
  have hlookup : lookup = (.converter (r.resolve key).1, (r.resolve key).2) := rfl
  have hok : ∀ c, lookup.1 = .converter (.ok c) ↔ (r.resolve key).1 = .ok c := by
    intro c
    rw [hlookup, Answer.converter.injEq]
  have hsucceeds : (∃ c, lookup.1 = .converter (.ok c)) ↔ ∃ row ∈ table, row.key = key.text := by
    simp only [hok]
    rw [resolve_ok_iff, hkept.table, isSome_kindInTable?_iff]
  refine ⟨hsucceeds, fun c hc => ⟨?_, ?_⟩, fun hnone => ?_, ?_, rfl⟩
  · have hkind := kind_of_resolve ((hok c).mp hc)
    rwa [hkept.table] at hkind
  · obtain ⟨row, hrow, hkey⟩ := hsucceeds.mp ⟨c, hc⟩
    unfold knownTypes TypeKey.base
    rw [SortedSet.mem_ofList, hkept.table, ← hkey]
    exact List.mem_map_of_mem hrow
  · rw [← isSome_kindInTable?_iff, Option.not_isSome_iff_eq_none, ← hkept.table] at hnone
    rw [hlookup, resolve_eq_error hnone]
  · rw [hsucceeds, ← isSome_kindInTable?_iff, ← hkept.table, ← isKnown_eq]
    show Answer.known (r.isKnown key) = .known true ↔ _
    rw [Answer.known.injEq]

/-- Case and blanks make no other key, and a key that is not in the table leaves nothing. -/
example : ((standard ⟨[]⟩).after
    [.resolve "" "" "Text", .resolve "timeseries" "Simple" " text ", .resolve "" "" "blob"]).cached =
      1 := by decide

end Observatory.Registry
