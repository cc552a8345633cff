import Observatory.Proofs.Text.Spelling
import Observatory.Value.TypeKey

/-! Keys of kinds.

However three kinds are spelled, they have one key (`derive_congr`), and it is spelled
canonically (`isCanonical_derive`). The observation kind does not count for a trajectory, the
dataset kind does not count otherwise, and a key taken for a value kind of its own, in a
dataset that adds nothing to it, is its own key (`derive_normalises`). -/
namespace Observatory.TypeKey
open Text

/-- Dataset kinds that take part in the key. -/
def IsTrajectory (dataset : String) : Prop := Respelled dataset "trajectory"

/-- Observation kinds that take no part in the key: none, or simple. -/
def IsSimple (observation : String) : Prop :=
  Respelled observation "" ∨ Respelled observation "simple"

section Kinds
variable {kind kind' : String}

theorem isTrajectory_iff : IsTrajectory kind ↔ canonical kind = "trajectory" :=
  respelled_iff

theorem isSimple_iff : IsSimple kind ↔ canonical kind = "" ∨ canonical kind = "simple" :=
  or_congr respelled_iff respelled_iff

theorem isTrajectory_congr (h : Respelled kind kind') : IsTrajectory kind ↔ IsTrajectory kind' := by
  rw [isTrajectory_iff, isTrajectory_iff, respelled_iff.mp h]

theorem isSimple_congr (h : Respelled kind kind') : IsSimple kind ↔ IsSimple kind' := by
  rw [isSimple_iff, isSimple_iff, respelled_iff.mp h]

instance : Decidable (IsTrajectory kind) := inferInstanceAs (Decidable (Respelled _ _))

instance : Decidable (IsSimple kind) := inferInstanceAs (Decidable (_ ∨ _))

end Kinds

/-! ### The key in each case -/

section Cases
variable {dataset observation : String} (value : String)

theorem derive_trajectory (hdataset : IsTrajectory dataset) (observation : String) :
    derive dataset observation value = ⟨canonical value ++ "-" ++ "trajectory"⟩ := by
  have hletters : sameLetters (trim dataset) "trajectory" = true :=
    beq_iff_eq.mpr (isTrajectory_iff.mp hdataset)
  simp only [derive, canonical, hletters, if_true]

theorem derive_of_not_trajectory (hdataset : ¬ IsTrajectory dataset) (observation : String) :
    derive dataset observation value =
      if IsSimple observation then ⟨canonical value⟩
      else ⟨canonical value ++ "-" ++ canonical observation⟩ := by
  have hletters : ¬ sameLetters (trim dataset) "trajectory" = true :=
    fun h => hdataset (isTrajectory_iff.mpr (beq_iff_eq.mp h))
  have hcounts : (trim observation ≠ "" ∧ ¬ sameLetters (trim observation) "simple" = true) ↔
      ¬ IsSimple observation := by
    rw [isSimple_iff, canonical_eq_empty_iff, not_or]
    exact and_congr_right fun _ => not_congr beq_iff_eq
  simp only [derive, canonical]
  rw [if_neg hletters]
  by_cases hsimple : IsSimple observation
  · rw [if_pos hsimple, if_neg (mt hcounts.mp (not_not.mpr hsimple))]
  · rw [if_neg hsimple, if_pos (hcounts.mpr hsimple)]

theorem derive_simple (hdataset : ¬ IsTrajectory dataset) (hobservation : IsSimple observation) :
    derive dataset observation value = ⟨canonical value⟩ := by
  rw [derive_of_not_trajectory value hdataset, if_pos hobservation]

theorem derive_structured (hdataset : ¬ IsTrajectory dataset)
    (hobservation : ¬ IsSimple observation) :
    derive dataset observation value = ⟨canonical value ++ "-" ++ canonical observation⟩ := by
  rw [derive_of_not_trajectory value hdataset, if_neg hobservation]

end Cases

/-! ### The key in all cases -/

/-- **Kinds that are spelled differently have the same key.** -/
theorem derive_congr {dataset observation value dataset' observation' value' : String}
    (hdataset : Respelled dataset dataset') (hobservation : Respelled observation observation')
    (hvalue : Respelled value value') :
    derive dataset' observation' value' = derive dataset observation value := by
  by_cases htrajectory : IsTrajectory dataset
  · rw [derive_trajectory _ htrajectory,
      derive_trajectory _ ((isTrajectory_congr hdataset).mp htrajectory), respelled_iff.mp hvalue]
  · have htrajectory' : ¬ IsTrajectory dataset' := mt (isTrajectory_congr hdataset).mpr htrajectory
    rw [derive_of_not_trajectory _ htrajectory, derive_of_not_trajectory _ htrajectory',
      respelled_iff.mp hvalue, respelled_iff.mp hobservation]
    simp only [isSimple_congr hobservation]

/-- Keys are spelled canonically. -/
theorem isCanonical_derive (dataset observation value : String) :
    IsCanonical (derive dataset observation value).text := by
  have hvalue := isCanonical_canonical value
  by_cases htrajectory : IsTrajectory dataset
  · rw [derive_trajectory value htrajectory]
    exact hvalue.hyphenated (canonical_eq_self_iff.mp (by decide)) (by decide)
  · by_cases hsimple : IsSimple observation
    · rw [derive_simple value htrajectory hsimple]
      exact hvalue
    · rw [derive_structured value htrajectory hsimple]
      have hne : canonical observation ≠ "" := fun h => hsimple (isSimple_iff.mpr (.inl h))
      exact hvalue.hyphenated (isCanonical_canonical observation) hne

/-- **The key of three kinds is a normal form of them.** It does not depend on their spelling,
nor on the observation kind of a trajectory, nor on the kind of a dataset that is none. Taken
for a value kind, where the other kinds add nothing, it is its own key; the key of such kinds
is a spelling of the value kind. -/
theorem derive_normalises (dataset observation value : String) :
    let key := derive dataset observation value
    (∀ dataset' observation' value', Respelled dataset dataset' →
      Respelled observation observation' → Respelled value value' →
      derive dataset' observation' value' = key) ∧
    (IsTrajectory dataset → ∀ observation', derive dataset observation' value = key) ∧
    (¬ IsTrajectory dataset →
      ∀ dataset', ¬ IsTrajectory dataset' → derive dataset' observation value = key) ∧
    (∀ dataset' observation', ¬ IsTrajectory dataset' → IsSimple observation' →
      derive dataset' observation' key.text = key) ∧
    (¬ IsTrajectory dataset → IsSimple observation → Respelled value key.text) := by
  intro key
  refine ⟨fun _ _ _ => derive_congr, fun htrajectory observation' => ?_,
    fun htrajectory dataset' htrajectory' => ?_, fun dataset' observation' hdataset hsimple => ?_,
    fun htrajectory hsimple => ?_⟩
  · exact (derive_trajectory value htrajectory observation').trans
      (derive_trajectory value htrajectory observation).symm
  · exact (derive_of_not_trajectory value htrajectory' observation).trans
      (derive_of_not_trajectory value htrajectory observation).symm
  · rw [derive_simple key.text hdataset hsimple,
      canonical_eq_self_iff.mpr (isCanonical_derive dataset observation value)]
  · show Respelled value (derive dataset observation value).text
    rw [derive_simple value htrajectory hsimple]
    exact respelled_canonical value

example : derive "Time Series" "\tSimple " "\u00a0QUANTITY" = ⟨"quantity"⟩ := by decide

end Observatory.TypeKey
