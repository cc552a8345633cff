import Observatory.Service.Output

/-! Labels.

An entity is called by its translation in the locale of a request, by its name where it is not
translated, or by its identifier (`Entity.Called`). In short it is told by its keys, by what it
is called, and by the place where more is told of it (`CondensedEntity.ShortOf`); there is one
way to tell it so (`CondensedEntity.shortOf_iff`). -/
namespace Observatory

/-! ### Names -/

/-- What an entity is called in a locale: by the translation, else by the name, else by the
identifier. -/
inductive Entity.Called (locale : String) (e : Entity) : String → Prop
  | translation {label : String} (h : e.translations.find? locale = some label) :
    Called locale e label
  | name {label : String} (htranslation : e.translations.find? locale = none)
    (h : e.name = some label) : Called locale e label
  | identifier (htranslation : e.translations.find? locale = none) (hname : e.name = none) :
    Called locale e e.identifier

theorem Entity.called_label (locale : String) (e : Entity) : e.Called locale (e.label locale) := by
  unfold label
  split
  · next htranslation => exact .translation htranslation
  · next htranslation =>
    cases hname : e.name with
    | some label => exact .name htranslation hname
    | none => exact .identifier htranslation hname

/-- There is one name for an entity. -/
theorem Entity.Called.unique {locale label other : String} {e : Entity} (h : e.Called locale label)
    (h' : e.Called locale other) : label = other := by
  cases h <;> cases h' <;> simp_all

/-! ### Short entities -/

namespace CondensedEntity

/-- What is told of an entity in short. -/
structure ShortOf (e : Entity) (dimension : Dimension) (options : Options) (x : CondensedEntity) :
    Prop where
  id : x.id = toString e.id
  domainId : x.domainId = e.identifier
  label : e.Called options.locale x.label
  href : x.href = options.href? dimension.collection (toString e.id)

theorem shortOf_iff {e : Entity} {dimension : Dimension} {options : Options} {x : CondensedEntity} :
    ShortOf e dimension options x ↔ x = of e dimension options := by
  constructor
  · intro h
    obtain ⟨id, domainId, label, href⟩ := x
    obtain ⟨rfl, rfl, hlabel, rfl⟩ := h
    obtain rfl : label = e.label options.locale := hlabel.unique (e.called_label options.locale)
    rfl
  · intro h
    subst h
    exact ⟨rfl, rfl, e.called_label options.locale, rfl⟩

end CondensedEntity
end Observatory
