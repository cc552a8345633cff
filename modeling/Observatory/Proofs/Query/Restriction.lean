import Observatory.Proofs.Collection.SortedSet
import Observatory.Proofs.Outcomes
import Observatory.Proofs.Query.Binding
import Observatory.Query.Composition
import Observatory.Query.Restriction

/-! What single restrictions ask.

`Admits` says without predicates what a list of keys asks of a record: an empty list
nothing; a list of domain identifiers that one of them is the record's; a list of ids
that all of them can be read and the record's is among them. Restricting a key column
asks exactly that of a row that holds the record's keys there (`membership_holds`). -/
namespace Observatory.Restriction
open Predicate (evaluate SubqueryFree)

/-- The id that a key stands for, blanks around it aside. -/
def readId? (key : String) : Option Id := Text.int64? (Text.trim key)

/-- What a list of keys asks of a record with that id, which may be missing, and with the
domain identifiers that are said to be its own. -/
def Admits (keys : SortedSet String) (useDomainIdentifiers : Bool) (id : Option Id)
    (identified : String → Prop) : Prop :=
  keys = ∅ ∨
    if useDomainIdentifiers then ∃ key ∈ keys, identified key
    else (∀ key ∈ keys, (readId? key).isSome) ∧ ∃ key ∈ keys, id = readId? key

instance {keys : SortedSet String} {useDomainIdentifiers : Bool} {id : Option Id}
    {identified : String → Prop} [DecidablePred identified] :
    Decidable (Admits keys useDomainIdentifiers id identified) := by
  show Decidable (keys = ∅ ∨ if _ then _ else _)
  infer_instance

/-- Where ids are asked for, a list with a key that is none admits nothing. -/
theorem not_admits_of_unreadable {keys : SortedSet String} {id : Option Id}
    {identified : String → Prop} (h : ∃ key ∈ keys, readId? key = none) :
    ¬ Admits keys false id identified := by
  obtain ⟨key, hkey, hnone⟩ := h
  intro h
  rcases h with hempty | h
  · rw [hempty] at hkey
    exact absurd hkey List.not_mem_nil
  · rw [if_neg Bool.false_ne_true] at h
    have hread := h.1 key hkey
    rw [hnone] at hread
    exact absurd hread Bool.false_ne_true

/-! ### Reading ids -/

/-- Reads one key; one that is no id is refused. -/
def parseId (dimension key : String) : Except Error Id :=
  match readId? key with
  | some id => .ok id
  | none => .error (.malformedIdentifier dimension key)

theorem parseIds_eq (dimension : String) (keys : SortedSet String) :
    parseIds dimension keys = (keys.toList.mapM (parseId dimension)).map SortedSet.ofList := by
  unfold parseIds
  refine congrArg (fun parse : String → Except Error Id =>
    (keys.toList.mapM parse).map SortedSet.ofList) (funext fun key => ?_)
  unfold parseId readId?
  cases Text.int64? (Text.trim key) <;> rfl

theorem parseIds_readable (dimension : String) {keys : SortedSet String}
    (h : ∀ key ∈ keys, (readId? key).isSome) :
    ∃ ids, parseIds dimension keys = .ok ids ∧
      ∀ id, id ∈ ids ↔ ∃ key ∈ keys, some id = readId? key := by
  have hread : ∀ key ∈ keys.toList, parseId dimension key = .ok ((readId? key).getD 0) := by
    intro key hkey
    obtain ⟨id, hid⟩ := Option.isSome_iff_exists.mp (h key hkey)
    rw [parseId, hid]
    rfl
  rw [parseIds_eq, Outcomes.mapM_ok hread]
  refine ⟨_, rfl, fun id => ?_⟩
  rw [SortedSet.mem_ofList, List.mem_map]
  refine exists_congr fun key => and_congr_right fun hkey => ?_
  obtain ⟨read, hid⟩ := Option.isSome_iff_exists.mp (h key hkey)
  rw [hid, Option.getD_some, Option.some.injEq, eq_comm]

theorem parseIds_unreadable (dimension : String) {keys : SortedSet String}
    (h : ∃ key ∈ keys, readId? key = none) : ∃ e, parseIds dimension keys = .error e := by
  obtain ⟨key, hkey, hread⟩ := h
  have hparse : parseId dimension key = .error (.malformedIdentifier dimension key) := by
    rw [parseId, hread]
  obtain ⟨e, he⟩ := Outcomes.mapM_fails ⟨key, hkey, _, hparse⟩
  exact ⟨e, by rw [parseIds_eq, he]; rfl⟩

/-! ### Value sets

What a set of values asks of a cell: a cell that holds nothing is in no set. -/

section Sets
variable (resolver : Resolver) (row : Row) (column : Column)

theorem ids_hold {ids : SortedSet Id} {id : Option Id} (hid : row column = .ofId? id) :
    (Predicate.isIn column (.ids ids)).evaluate resolver row = true ↔ ∃ n ∈ ids, id = some n := by
  rw [evaluate, hid]
  cases id with
  | none => exact ⟨fun h => absurd h Bool.false_ne_true, by simp⟩
  | some n =>
    show ids.contains n = true ↔ _
    rw [SortedSet.contains_iff]
    simp only [Option.some.injEq, exists_eq_right']

theorem texts_hold {texts : SortedSet String} {text : Option String}
    (htext : row column = .ofText? text) :
    (Predicate.isIn column (.texts texts)).evaluate resolver row = true ↔
      ∃ t ∈ texts, text = some t := by
  rw [evaluate, htext]
  cases text with
  | none => exact ⟨fun h => absurd h Bool.false_ne_true, by simp⟩
  | some t =>
    show texts.contains t = true ↔ _
    rw [SortedSet.contains_iff]
    simp only [Option.some.injEq, exists_eq_right']

/-- Restricting a text column to an empty list asks nothing, else the text is listed. -/
theorem kinds_holds (texts : SortedSet String) {text : String} (htext : row column = .text text) :
    (kinds column texts).all (evaluate resolver row) = true ↔ texts = ∅ ∨ text ∈ texts := by
  unfold kinds
  by_cases hempty : texts.isEmpty = true
  · rw [if_pos hempty]
    exact ⟨fun _ => .inl (SortedSet.isEmpty_iff.mp hempty), fun _ => rfl⟩
  · have hne : texts ≠ ∅ := fun h => hempty (SortedSet.isEmpty_iff.mpr h)
    have hcell : row column = .ofText? (some text) := htext
    rw [if_neg hempty, or_iff_right hne, Option.all_some, texts_hold resolver row column hcell]
    simp only [Option.some.injEq, exists_eq_right']

end Sets

/-! ### Key columns -/

/-- Where all keys are ids, the ids that they are read as are asked for. -/
theorem mem_read_iff {keys : SortedSet String} (hread : ∀ key ∈ keys, (readId? key).isSome)
    {ids : SortedSet Id} (hids : ∀ n, n ∈ ids ↔ ∃ key ∈ keys, some n = readId? key)
    {id : Option Id} : (∃ n ∈ ids, id = some n) ↔ ∃ key ∈ keys, id = readId? key := by
  constructor
  · rintro ⟨n, hn, hid⟩
    rw [hid]
    exact (hids n).mp hn
  · rintro ⟨key, hkey, hid⟩
    obtain ⟨n, hn⟩ := Option.isSome_iff_exists.mp (hread key hkey)
    exact ⟨n, (hids n).mpr ⟨key, hkey, hn.symm⟩, hid.trans hn⟩

/-- **Restricting a key column asks of a row what the list asks of its record.** -/
theorem membership_holds (resolver : Resolver) (row : Row) (dimension : String)
    (keys : SortedSet String) (useDomainIdentifiers : Bool) (column : Key → Column)
    {id : Option Id} {identifier : Option String} {identified : String → Prop}
    (hid : row (column .id) = .ofId? id) (hidentifier : row (column .identifier) = .ofText? identifier)
    (hidentified : ∀ key, identifier = some key ↔ identified key) :
    (membership dimension keys useDomainIdentifiers column).all (evaluate resolver row) = true ↔
      Admits keys useDomainIdentifiers id identified := by
  unfold membership Admits
  by_cases hkeys : keys.isEmpty = true
  · rw [if_pos hkeys]
    exact ⟨fun _ => .inl (SortedSet.isEmpty_iff.mp hkeys), fun _ => rfl⟩
  have hne : keys ≠ ∅ := fun h => hkeys (SortedSet.isEmpty_iff.mpr h)
  rw [if_neg hkeys, or_iff_right hne]
  cases useDomainIdentifiers with
  | true =>
    rw [if_pos rfl, if_pos rfl, Option.all_some, texts_hold resolver row _ hidentifier]
    simp only [hidentified]
  | false =>
    rw [if_neg Bool.false_ne_true, if_neg Bool.false_ne_true]
    by_cases hread : ∀ key ∈ keys, (readId? key).isSome
    · obtain ⟨ids, hids, hmem⟩ := parseIds_readable dimension hread
      rw [hids, and_iff_right hread]
      exact (ids_hold resolver row _ hid).trans (mem_read_iff hread hmem)
    · obtain ⟨key, hkey, hnone⟩ : ∃ key ∈ keys, readId? key = none := by
        simpa using hread
      obtain ⟨e, he⟩ := parseIds_unreadable dimension ⟨key, hkey, hnone⟩
      rw [he]
      show evaluate resolver row .never = true ↔ _
      rw [evaluate]
      exact ⟨fun h => absurd h Bool.false_ne_true, fun h => absurd h.1 hread⟩

/-! ### Shapes -/

/-- Restricting to an envelope asks for a shape, and that it meets the envelope. -/
theorem bbox_holds (resolver : Resolver) (row : Row) (envelope : Option (Envelope Float))
    {shape : Option (Geometry Float)} (hshape : row .geometry = .ofShape? shape) :
    (bbox envelope).all (evaluate resolver row) = true ↔
      ∀ e ∈ envelope, ∃ g ∈ shape, g.intersects e = true := by
  cases envelope with
  | none => exact ⟨fun _ e he => absurd he (by simp), fun _ => rfl⟩
  | some e =>
    show evaluate resolver row (.intersects .geometry e) = true ↔ _
    rw [evaluate, hshape]
    cases shape with
    | none =>
      refine ⟨fun h => absurd h Bool.false_ne_true, fun h => ?_⟩
      obtain ⟨g, hg, _⟩ := h e rfl
      exact absurd hg (by simp)
    | some g =>
      show g.intersects e = true ↔ _
      constructor
      · rintro h e' he
        obtain rfl := Option.some.inj he
        exact ⟨g, rfl, h⟩
      · intro h
        obtain ⟨g', hg, h⟩ := h e rfl
        rwa [Option.some.inj hg]

/-! ### Shape

A single restriction compares one column, or nothing meets it; a query joins such
restrictions to that of being public. -/

/-- What a single restriction looks like. -/
inductive Plain : Predicate → Prop
  | never : Plain .never
  | isIn (column values) : Plain (.isIn column values)
  | intersects (column envelope) : Plain (.intersects column envelope)

theorem Plain.subqueryFree {p : Predicate} (h : Plain p) : SubqueryFree p := by
  cases h with
  | never => exact .never
  | isIn column values => exact .isIn column values
  | intersects column envelope => exact .intersects column envelope

theorem plain_membership {dimension : String} {keys : SortedSet String}
    {useDomainIdentifiers : Bool} {column : Key → Column} :
    ∀ p ∈ membership dimension keys useDomainIdentifiers column, Plain p := by
  intro p hp
  unfold membership at hp
  split at hp
  · exact absurd hp (by simp)
  · split at hp
    · obtain rfl := Option.some.inj hp
      exact .isIn ..
    · split at hp
      · obtain rfl := Option.some.inj hp
        exact .isIn ..
      · obtain rfl := Option.some.inj hp
        exact .never

theorem plain_kinds {column : Column} {texts : SortedSet String} :
    ∀ p ∈ kinds column texts, Plain p := by
  intro p hp
  unfold kinds at hp
  split at hp
  · exact absurd hp (by simp)
  · obtain rfl := Option.some.inj hp
    exact .isIn ..

theorem plain_bbox {envelope : Option (Envelope Float)} : ∀ p ∈ bbox envelope, Plain p := by
  intro p hp
  obtain ⟨e, _, rfl⟩ := Option.map_eq_some_iff.mp hp
  exact .intersects ..

theorem subqueryFree_isPublic : SubqueryFree isPublic := by
  apply Predicate.subqueryFree_all
  intro p hp
  simp only [List.mem_cons, List.not_mem_nil, or_false] at hp
  rcases hp with rfl | rfl | rfl | rfl
  · exact .isNotNull ..
  · exact .flag ..
  · exact .flag ..
  · exact .flag ..

/-- What a query joins. -/
theorem matchFilters_eq (q : Query) : ∃ others : List (Option Predicate),
    q.matchFilters = .allOf (some isPublic :: others) ∧ ∀ o ∈ others, ∀ p ∈ o, Plain p := by
  refine ⟨_, rfl, fun o ho p hp => ?_⟩
  simp only [List.mem_cons, List.not_mem_nil, or_false] at ho
  rcases ho with rfl | rfl | rfl | rfl | rfl | rfl | rfl | rfl | rfl | rfl
  iterate 7 exact plain_membership p hp
  · exact plain_bbox p hp
  iterate 2 exact plain_kinds p hp

end Observatory.Restriction
