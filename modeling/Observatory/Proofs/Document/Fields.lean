import Mathlib.Data.List.Nodup
import Observatory.Document.Basic
import Observatory.Proofs.Text.Numeral

/-! Records that are written and read back.

What a record is written from is a list of slots, a name each and a value if there is one
(`written`). As long as the names are distinct, a record holds the fields that were written,
each under its name (`record_written`), so that a structure is read back when each of its
fields is (`readsRecord`): one that has to be there (`required_of`), one that is left out when
there is no value (`optional_of`), and one that is left out when it is the default
(`orElse_unless`). -/
namespace Observatory.Document

/-! ### Values -/

/-- A value is read back from the document that is written for it, and the document is not
null, which would be read as no value. -/
structure Restores {α : Type} (write : α → Document) (read? : Document → Option α) (a : α) :
    Prop where
  read : read? (write a) = some a
  not_null : (write a).isNull = false

theorem restores_text (s : String) : Restores .text text? s := ⟨rfl, rfl⟩

theorem restores_boolean (b : Bool) : Restores .boolean boolean? b := ⟨rfl, rfl⟩

theorem restores_int64 (n : Int64) : Restores (fun n => .integer n.toInt) int64? n :=
  ⟨Text.int64OfInt?_toInt n, rfl⟩

theorem restores_int32 (n : Int32) : Restores (fun n => .integer n.toInt) int32? n where
  read := by
    show Text.int32OfInt? n.toInt = some n
    rw [Text.int32OfInt?, if_pos ⟨n.le_toInt, n.toInt_le⟩, Int32.ofInt_toInt]
  not_null := rfl

/-- A double is read back if it is a real number. -/
theorem restores_real {x : Float} (h : Number.isFinite x = true) : Restores ofFloat real? x := by
  have hwrite : ofFloat x = .real x := if_pos h
  exact ⟨by rw [hwrite]; rfl, by rw [hwrite]; rfl⟩

section Lists
variable {α : Type} {write : α → Document} {read? : Document → Option α}

theorem mapM_restores {xs : List α} (h : ∀ a ∈ xs, Restores write read? a) :
    (xs.map write).mapM read? = some xs := by
  induction xs with
  | nil => rfl
  | cons a rest ih =>
    obtain ⟨ha, hrest⟩ := List.forall_mem_cons.mp h
    rw [List.map_cons, List.mapM_cons, ha.read, ih hrest]
    rfl

/-- A list is read back if its items are. -/
theorem restores_list {xs : List α} (h : ∀ a ∈ xs, Restores write read? a) :
    Restores (ofList write) (listOf? read?) xs :=
  ⟨mapM_restores h, rfl⟩

end Lists

/-! ### What is written -/

/-- The fields of a record, from a name each with a value if there is one. -/
def written (slots : List (String × Option Document)) : Fields :=
  slots.filterMap fun slot => slot.2.map (slot.1, ·)

theorem field_eq (name : String) (d : Document) : field name d = written [(name, some d)] := rfl

theorem fieldIfSome_eq {α : Type} (name : String) (write : α → Document) (o : Option α) :
    fieldIfSome name write o = written [(name, o.map write)] := by
  cases o <;> rfl

theorem fieldIfAny_eq {α : Type} (name : String) (write : α → Document) (xs : List α) :
    fieldIfAny name write xs =
      written [(name, if xs.isEmpty then none else some (ofList write xs))] := by
  cases xs <;> rfl

theorem written_unless (omitted : Bool) (name : String) (d : Document) :
    (if omitted then [] else written [(name, some d)]) =
      written [(name, if omitted then none else some d)] := by
  cases omitted <;> rfl

theorem written_append (slots more : List (String × Option Document)) :
    written slots ++ written more = written (slots ++ more) := List.filterMap_append.symm

section Written
variable {slots : List (String × Option Document)} (h : (slots.map (·.1)).Nodup)

theorem names_written_sublist (slots : List (String × Option Document)) :
    ((written slots).map (·.1)).Sublist (slots.map (·.1)) := by
  induction slots with
  | nil => exact .slnil
  | cons slot rest ih =>
    obtain ⟨name, value⟩ := slot
    cases value with
    | none => exact .cons name ih
    | some d => exact .cons_cons name ih

include h

theorem givenOnce_written (names : List String) : Fields.givenOnce names (written slots) = true := by
  have hdistinct : ((written slots).map (·.1)).Nodup := h.sublist (names_written_sublist slots)
  refine List.all_eq_true.mpr fun name _ => decide_eq_true ?_
  have hcount := List.nodup_iff_count_le_one.mp hdistinct name
  rwa [List.count, List.countP_map, List.countP_eq_length_filter] at hcount

/-- A field is found under its name if it was written. -/
theorem lookup_written (name : String) :
    (written slots).lookup name = (slots.lookup name).join := by
  induction slots with
  | nil => rfl
  | cons slot rest ih =>
    obtain ⟨other, value⟩ := slot
    obtain ⟨hother, hrest⟩ := List.nodup_cons.mp h
    by_cases hname : name = other
    · rw [hname, List.lookup_cons_self]
      cases value with
      | some d => exact List.lookup_cons_self
      | none =>
        -- The name is not given again further behind.
        refine List.lookup_eq_none_iff.mpr fun field hfield => bne_iff_ne.mpr fun hsame => ?_
        have hmem : other ∈ (written rest).map (·.1) :=
          List.mem_map.mpr ⟨field, hfield, hsame.symm⟩
        exact hother ((names_written_sublist rest).mem hmem)
    · rw [List.lookup_cons, beq_false_of_ne hname, ← ih hrest]
      cases value with
      | some d =>
        show List.lookup name ((other, d) :: written rest) = _
        rw [List.lookup_cons, beq_false_of_ne hname]
      | none => rfl

end Written

/-- **A record holds the fields that were written**, each once and under its name, if they
are those of a structure. -/
theorem record_written {slots : List (String × Option Document)} {names : List String}
    {p : Fields → Prop} (hnames : slots.map (·.1) = names) (hdistinct : names.Nodup)
    (h : ∀ fields : Fields, fields.givenOnce names = true →
      (∀ name, fields.lookup name = (slots.lookup name).join) → p fields) :
    ∃ fields, Document.record (written slots) = .record fields ∧ p fields := by
  rw [← hnames] at hdistinct
  exact ⟨_, rfl, h _ (givenOnce_written hdistinct names) (lookup_written hdistinct)⟩

/-- A structure is read back from its record if it is read back from the fields. -/
theorem readsRecord {α : Type} {slots : List (String × Option Document)} {names : List String}
    {least : Nat} {read? : Fields → Option α} {a : α} (hnames : slots.map (·.1) = names)
    (hdistinct : names.Nodup)
    (h : ∀ fields : Fields, (∀ name, fields.lookup name = (slots.lookup name).join) →
      read? fields = some a) :
    ((Document.record (written slots)).structure? names least >>= read?) = some a := by
  obtain ⟨fields, hfields, honce, hread⟩ := record_written hnames hdistinct
    fun fields honce hlookup => And.intro honce (h fields hlookup)
  have hstructure : (Document.record fields).structure? names least = some fields :=
    Option.filter_some_pos honce
  rw [hfields, hstructure]
  exact hread

/-- A reader that looks for the first field of a name reads what is found under the name. -/
theorem eq_map_lookup {β : Type} {name : String} {read : Document → β}
    {find? : Fields → Option β} (hnil : find? [] = none)
    (hcons : ∀ other d rest,
      find? ((other, d) :: rest) = if other = name then some (read d) else find? rest)
    (fields : Fields) : find? fields = (fields.lookup name).map read := by
  induction fields with
  | nil => exact hnil
  | cons field rest ih =>
    obtain ⟨other, d⟩ := field
    rw [hcons, List.lookup_cons, ih]
    by_cases hname : other = name
    · rw [if_pos hname, hname, beq_self_eq_true]
      rfl
    · rw [if_neg hname, beq_false_of_ne (Ne.symm hname)]

/-! ### Fields of a structure -/

/-- A reader goes on with what its first step gives. -/
theorem reads_then {α β : Type} {first : Option α} {a : α} {rest : α → Option β} {b : β}
    (hfirst : first = some a) (hrest : rest a = some b) : (first >>= rest) = some b := by
  rw [hfirst]
  exact hrest

section Fields
variable {α : Type} {write : α → Document} {read? : Document → Option α} {fields : Fields}
  {name : String}

theorem required_of {a : α} (ha : Restores write read? a)
    (h : fields.lookup name = some (write a)) : fields.required name read? = some a := by
  rw [Fields.required, h]
  exact ha.read

theorem orElse_of {a default : α} (ha : Restores write read? a)
    (h : fields.lookup name = some (write a)) : fields.orElse name default read? = some a := by
  rw [Fields.orElse, h]
  exact ha.read

theorem optional_of {o : Option α} (ho : ∀ a ∈ o, Restores write read? a)
    (h : fields.lookup name = o.map write) : fields.optional name read? = some o := by
  rw [Fields.optional, h]
  cases o with
  | none => rfl
  | some a =>
    have ha := ho a rfl
    show (if (write a).isNull = true then _ else (read? (write a)).map some) = _
    rw [ha.not_null, if_neg Bool.false_ne_true, ha.read]
    rfl

/-- A value that is null when there is none is read back too. -/
theorem optional_ofOption {o : Option α} (ho : ∀ a ∈ o, Restores write read? a)
    (h : fields.lookup name = some (ofOption write o)) : fields.optional name read? = some o := by
  cases o with
  | some a => exact optional_of ho h
  | none =>
    rw [Fields.optional, h]
    rfl

/-- What is left out when it is the default is read back as the default. -/
theorem orElse_unless {a default : α} {omitted : Bool} (ha : Restores write read? a)
    (homitted : omitted = true → a = default)
    (h : fields.lookup name = if omitted then none else some (write a)) :
    fields.orElse name default read? = some a := by
  cases omitted with
  | true =>
    rw [Fields.orElse, h, homitted rfl]
    rfl
  | false => exact orElse_of ha h

end Fields

end Observatory.Document
