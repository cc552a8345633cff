import Observatory.Proofs.Text.Items
import Observatory.Query.ValueSet

/-! Displayed sets of literals.

The items of a displayed set stand between the commas outside of quotations (`outerItems`). A
quote inside a text is written twice, so nothing in a text ends its literal
(`literal_append_inj`), and the items come apart as they were put together
(`outerItems_display`). So a displayed set can be read in one way only
(`display_unambiguous`). -/
namespace Observatory.ValueSet
open Text

/-! ### Literals -/

section Literals
variable {c d : Char} {cs ds rest u v : List Char}

theorem doubleQuotes_cons :
    doubleQuotes (c :: cs) = (if c = '\x27' then [c, c] else [c]) ++ doubleQuotes cs := by
  by_cases h : c = '\x27' <;> simp [doubleQuotes, h]

theorem head?_doubleQuotes_cons : (doubleQuotes (c :: cs) ++ rest).head? = some c := by
  by_cases h : c = '\x27' <;> simp [doubleQuotes_cons, h]

/-- A quote that no other follows is not the beginning of more text in a literal. -/
theorem quote_ne_doubleQuotes (hu : u.head? ≠ some '\x27') :
    '\x27' :: u ≠ doubleQuotes (c :: cs) ++ rest := by
  intro h
  have hc : c = '\x27' := by
    have hhead := congrArg List.head? h
    rw [head?_doubleQuotes_cons] at hhead
    exact (Option.some.inj hhead).symm
  rw [doubleQuotes_cons, if_pos hc] at h
  have hrest := (List.cons.inj h).2
  exact hu (by rw [hrest, hc]; rfl)

/-- A quotation ends at the first quote that is not written twice, so its text and what follows
it are known. -/
theorem doubleQuotes_append_inj (hu : u.head? ≠ some '\x27') (hv : v.head? ≠ some '\x27')
    (h : doubleQuotes cs ++ '\x27' :: u = doubleQuotes ds ++ '\x27' :: v) : cs = ds ∧ u = v := by
  induction cs generalizing ds with
  | nil =>
    cases ds with
    | nil => exact ⟨rfl, (List.cons.inj h).2⟩
    | cons d ds => exact absurd h (quote_ne_doubleQuotes hu)
  | cons c cs ih =>
    cases ds with
    | nil => exact absurd h.symm (quote_ne_doubleQuotes hv)
    | cons d ds =>
      have hhead := congrArg List.head? h
      rw [head?_doubleQuotes_cons, head?_doubleQuotes_cons] at hhead
      obtain rfl := Option.some.inj hhead
      rw [doubleQuotes_cons, doubleQuotes_cons, List.append_assoc, List.append_assoc] at h
      obtain ⟨rfl, huv⟩ := ih (List.append_cancel_left h)
      exact ⟨rfl, huv⟩

theorem toList_literal (s : String) :
    (literal s).toList = '\x27' :: (doubleQuotes s.toList ++ ['\x27']) := by
  simp [literal]

/-- **Nothing in a text ends its literal**: where a literal is followed by something else than a
quote, it is known which text it stands for and where it ends. -/
theorem literal_append_inj {s t : String} (hu : u.head? ≠ some '\x27')
    (hv : v.head? ≠ some '\x27') (h : (literal s).toList ++ u = (literal t).toList ++ v) :
    s = t ∧ u = v := by
  rw [toList_literal, toList_literal] at h
  simp only [List.cons_append, List.append_assoc, List.nil_append, List.cons.injEq, true_and] at h
  obtain ⟨hst, huv⟩ := doubleQuotes_append_inj hu hv h
  exact ⟨String.toList_inj.mp hst, huv⟩

theorem literal_injective : Function.Injective literal := by
  intro s t h
  exact (literal_append_inj (u := []) (v := []) nofun nofun (by rw [h])).1

end Literals

/-! ### Items -/

/-- The pieces of a text between the commas outside of quotations; `quoted` says whether it
starts inside of one. A quote written twice ends a quotation and begins one again. -/
def outerPieces : (quoted : Bool) → List Char → List (List Char)
  | _, [] => [[]]
  | quoted, c :: rest =>
    if c = ',' ∧ quoted = false then [] :: outerPieces false rest
    else (outerPieces (quoted ^^ (c == '\x27')) rest).modifyHead (c :: ·)

/-- The items of a list that may have quotations: what stands between the commas outside of
them, without the blanks around it. -/
def outerItems (s : String) : List String :=
  ((outerPieces false s.toList).map fun piece => String.ofList (trimChars piece)).filter (· ≠ "")

/-- A text that is one piece of any text that begins with it, up to the next comma. -/
def IsClosed (item : List Char) : Prop :=
  ∀ rest, outerPieces false (item ++ rest) = (outerPieces false rest).modifyHead (item ++ ·)

section Pieces
variable {c : Char} {item rest : List Char} {items : List (List Char)}

theorem outerPieces_comma : outerPieces false (',' :: rest) = [] :: outerPieces false rest :=
  if_pos ⟨rfl, rfl⟩

theorem outerPieces_quote (quoted : Bool) :
    outerPieces quoted ('\x27' :: rest) =
      (outerPieces (!quoted) rest).modifyHead ('\x27' :: ·) := by
  simp [outerPieces]

theorem outerPieces_cons {quoted : Bool} (hcomma : c ≠ ',' ∨ quoted = true) (hquote : c ≠ '\x27') :
    outerPieces quoted (c :: rest) = (outerPieces quoted rest).modifyHead (c :: ·) := by
  have hno : ¬ (c = ',' ∧ quoted = false) := by
    intro ⟨hc, hquoted⟩
    rcases hcomma with h | h
    · exact h hc
    · rw [hquoted] at h
      exact Bool.false_ne_true h
  rw [outerPieces, if_neg hno, beq_eq_false_iff_ne.mpr hquote, Bool.xor_false]

theorem isClosed_nil : IsClosed [] := by
  intro rest
  exact (congrFun List.modifyHead_id (outerPieces false rest)).symm

theorem IsClosed.cons (h : IsClosed item) (hcomma : c ≠ ',') (hquote : c ≠ '\x27') :
    IsClosed (c :: item) := by
  intro rest
  rw [List.cons_append, outerPieces_cons (.inl hcomma) hquote, h, List.modifyHead_modifyHead]
  rfl

/-- A text without commas and quotes is one piece. -/
theorem isClosed_of_forall (h : ∀ c ∈ item, c ≠ ',' ∧ c ≠ '\x27') : IsClosed item := by
  induction item with
  | nil => exact isClosed_nil
  | cons c item ih =>
    obtain ⟨⟨hcomma, hquote⟩, hitem⟩ := List.forall_mem_cons.mp h
    exact (ih hitem).cons hcomma hquote

/-- A quotation goes on until the quote that ends it, whatever stands in it. -/
theorem outerPieces_doubleQuotes (cs : List Char) :
    outerPieces true (doubleQuotes cs ++ '\x27' :: rest) =
      (outerPieces false rest).modifyHead (doubleQuotes cs ++ '\x27' :: ·) := by
  induction cs with
  | nil => exact outerPieces_quote true
  | cons c cs ih =>
    by_cases hquote : c = '\x27'
    · rw [doubleQuotes_cons, if_pos hquote, hquote]
      simp only [List.cons_append, List.nil_append]
      rw [outerPieces_quote, Bool.not_true, outerPieces_quote, Bool.not_false, ih,
        List.modifyHead_modifyHead, List.modifyHead_modifyHead]
      rfl
    · rw [doubleQuotes_cons, if_neg hquote]
      simp only [List.cons_append, List.nil_append]
      rw [outerPieces_cons (.inr rfl) hquote, ih, List.modifyHead_modifyHead]
      rfl

theorem isClosed_literal (s : String) : IsClosed (literal s).toList := by
  intro rest
  rw [toList_literal, List.cons_append, List.append_assoc]
  show outerPieces false ('\x27' :: (doubleQuotes s.toList ++ '\x27' :: rest)) = _
  rw [outerPieces_quote, Bool.not_false, outerPieces_doubleQuotes, List.modifyHead_modifyHead]
  congr 1
  funext piece
  simp

/-- Pieces that are joined come apart again; all but the first keep the blank before them. -/
theorem outerPieces_intercalate {first : List Char} (hfirst : IsClosed first)
    (hitems : ∀ item ∈ items, IsClosed item) :
    outerPieces false ([',', ' '].intercalate (first :: items)) = first :: items.map (' ' :: ·) := by
  induction items generalizing first with
  | nil =>
    have h := hfirst []
    rw [List.append_nil] at h
    rw [List.intercalate_singleton, h]
    simp [outerPieces]
  | cons item items ih =>
    obtain ⟨hitem, hitems⟩ := List.forall_mem_cons.mp hitems
    have hnext := ih (hitem.cons (c := ' ') (by decide) (by decide)) hitems
    -- The blank after the comma is taken for the beginning of the next piece.
    have hjoined : [',', ' '].intercalate (first :: item :: items) =
        first ++ ',' :: [',', ' '].intercalate ((' ' :: item) :: items) := by
      rw [List.intercalate_cons_cons, List.append_assoc]
      cases items <;> simp
    rw [hjoined, hfirst, outerPieces_comma, hnext]
    simp

end Pieces

/-- A text that can be an item: one piece, with something in it and nothing to trim. -/
structure IsItem (item : String) : Prop where
  closed : IsClosed item.toList
  trimmed : trimChars item.toList = item.toList
  nonempty : item ≠ ""

/-- **Items that are joined come apart again.** -/
theorem outerItems_intercalate {items : List String} (h : ∀ item ∈ items, IsItem item) :
    outerItems (", ".intercalate items) = items := by
  cases items with
  | nil => decide
  | cons first items =>
    obtain ⟨hfirst, hitems⟩ := List.forall_mem_cons.mp h
    have hclosed : ∀ item ∈ items.map String.toList, IsClosed item :=
      List.forall_mem_map.mpr fun item hitem => (hitems item hitem).closed
    have hpieces : outerPieces false (", ".intercalate (first :: items)).toList =
        first.toList :: items.map fun item => ' ' :: item.toList := by
      rw [String.toList_intercalate, List.map_cons]
      show outerPieces false ([',', ' '].intercalate _) = _
      rw [outerPieces_intercalate hfirst.closed hclosed, List.map_map]
      rfl
    have htrimmed : (items.map fun item => ' ' :: item.toList).map
        (fun piece => String.ofList (trimChars piece)) = items := by
      rw [List.map_map]
      refine (List.map_congr_left fun item hitem => ?_).trans (List.map_id items)
      show String.ofList (trimChars (' ' :: item.toList)) = item
      rw [trimChars_cons_of_blank (by decide), (hitems item hitem).trimmed, String.ofList_toList]
    rw [outerItems, hpieces, List.map_cons, htrimmed, hfirst.trimmed, String.ofList_toList,
      List.filter_eq_self]
    exact fun item hitem => decide_eq_true (h item hitem).nonempty

theorem isItem_literal (s : String) : IsItem (literal s) where
  closed := isClosed_literal s
  trimmed := by
    rw [trimChars_eq_self_iff, toList_literal, ← List.cons_append, List.getLast?_concat]
    constructor
    · intro c hc
      obtain rfl := Option.some.inj hc
      decide
    · intro c hc
      obtain rfl := Option.some.inj hc
      decide
  nonempty := by
    rw [← String.toList_inj.ne, toList_literal]
    exact List.cons_ne_nil _ _

/-- A decimal form has digits, and a sign at most. -/
theorem mem_toString {id : Id} {c : Char} (h : c ∈ (toString id).toList) :
    c = '-' ∨ c.isDigit = true := by
  have hint : (toString id).toList = (toString id.toInt).toList := rfl
  rw [hint, toList_toString] at h
  split at h
  · exact .inr (isDigit_of_mem_toDigits h)
  · exact (List.mem_cons.mp h).imp_right isDigit_of_mem_toDigits

theorem isItem_toString (id : Id) : IsItem (toString id) where
  closed := by
    refine isClosed_of_forall fun c hc => ?_
    rcases mem_toString hc with rfl | hdigit
    · decide
    · constructor
      · rintro rfl
        exact absurd hdigit (by decide)
      · rintro rfl
        exact absurd hdigit (by decide)
  trimmed := by
    have h := congrArg String.toList (trim_toString id)
    rwa [trim, String.toList_ofList] at h
  nonempty := by
    intro h
    have hread := int64?_toString id
    rw [h] at hread
    exact nomatch hread

/-! ### Displayed sets -/

/-- The text between the parentheses of a displayed set. -/
def inside (s : String) : String := String.ofList s.toList.tail.dropLast

theorem inside_display (s : ValueSet) : inside s.display = ", ".intercalate s.literals := by
  apply String.toList_injective
  simp [inside, display]

theorem isItem_of_mem_literals {s : ValueSet} {item : String} (h : item ∈ s.literals) :
    IsItem item := by
  cases s with
  | ids values =>
    obtain ⟨id, _, rfl⟩ := List.mem_map.mp h
    exact isItem_toString id
  | texts values =>
    obtain ⟨t, _, rfl⟩ := List.mem_map.mp h
    exact isItem_literal t

/-- **The items of a displayed set come apart again.** -/
theorem outerItems_display (s : ValueSet) : outerItems (inside s.display) = s.literals := by
  rw [inside_display]
  exact outerItems_intercalate fun _ => isItem_of_mem_literals

theorem literals_eq_of_display_eq {s t : ValueSet} (h : s.display = t.display) :
    s.literals = t.literals := by
  rw [← outerItems_display s, h, outerItems_display t]

/-- No decimal form is a literal. -/
theorem toString_ne_literal (id : Id) (s : String) : toString id ≠ literal s := by
  intro h
  have hquote : '\x27' ∈ (toString id).toList := by
    rw [h, toList_literal]
    exact List.mem_cons_self
  rcases mem_toString hquote with hsign | hdigit
  · exact absurd hsign (by decide)
  · exact absurd hdigit (by decide)

/-- **A displayed set can be read in one way only.** Sets of texts that are displayed alike are
the same, and none is displayed as a set of ids is that has a member. Between the parentheses
the items come apart again, and there is one list of texts only whose literals they are: no
text ends its literal early. -/
theorem display_unambiguous (s t : SortedSet String) (numbers : SortedSet Id) :
    ((texts s).display = (texts t).display ↔ s = t) ∧
    (numbers ≠ ∅ → (ids numbers).display ≠ (texts s).display) ∧
    (∀ values : ValueSet, outerItems (inside values.display) = values.literals) ∧
    (∀ xs ys : List String,
      ", ".intercalate (xs.map literal) = ", ".intercalate (ys.map literal) → xs = ys) ∧
    ∀ (x y : String) (after after' : List Char), after.head? ≠ some '\x27' →
      after'.head? ≠ some '\x27' → (literal x).toList ++ after = (literal y).toList ++ after' →
      x = y ∧ after = after' := by
  refine ⟨⟨fun h => ?_, fun h => h ▸ rfl⟩, fun hne h => ?_, outerItems_display, fun xs ys h => ?_,
    fun x y after after' => literal_append_inj⟩
  · exact SortedSet.ext (literal_injective.list_map (literals_eq_of_display_eq h))
  · have hliterals := literals_eq_of_display_eq h
    obtain ⟨id, hid⟩ : ∃ id, id ∈ numbers.toList :=
      List.exists_mem_of_ne_nil _ fun hnil => hne (SortedSet.ext hnil)
    have hmem : toString id ∈ (texts s).literals := hliterals ▸ List.mem_map_of_mem hid
    obtain ⟨x, _, hx⟩ := List.mem_map.mp hmem
    exact toString_ne_literal id x hx.symm
  · have hitems (zs : List String) :
        outerItems (", ".intercalate (zs.map literal)) = zs.map literal :=
      outerItems_intercalate (List.forall_mem_map.mpr fun z _ => isItem_literal z)
    apply literal_injective.list_map
    rw [← hitems xs, h, hitems ys]

example : (texts (SortedSet.ofList ["a', 'b", "c,d"])).display = "('a'', ''b', 'c,d')" := by decide

end Observatory.ValueSet
