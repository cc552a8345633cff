import Mathlib.Data.String.Basic
import Observatory.Proofs.Collection.SortedSet
import Observatory.Proofs.Text.Items
import Observatory.Query.Request
import Observatory.Service.Config

/-! Lists in requests and settings.

A comma list is read as a filter of a request, as the sentinels of the settings, from a document
or from the environment, and as the sentinels that a caller hands over. A list that loses an
item, alters one or makes one up is another filter, or names other sentinels, so each of these
has to be an `IsSplitter`. They all are, and they agree (`lists_split_alike`). -/
namespace Observatory
open Text

/-- A way to split comma lists: it gives the items that were joined, collected in a list or in
a set. -/
structure IsSplitter {α : Type} [Membership String α] (collect : List String → α)
    (split : String → α) : Prop where
  /-- No item is empty, has a comma, or has a blank at either end. -/
  isListItem : ∀ s, ∀ x ∈ split s, IsListItem x
  /-- The items are the trimmed pieces between commas that are not empty, in order. -/
  trimmed_pieces : ∀ s, split s =
    collect (((s.toList.splitOn ',').map fun piece => trim (String.ofList piece)).filter (· ≠ ""))
  /-- Items that are joined, with any blanks and empty pieces among them, come apart again. -/
  joined : ∀ xs s, (∀ x ∈ xs, IsListItem x) → Joined xs s → split s = collect xs

theorem items_eq_trimmed_pieces (s : String) :
    items s =
      ((s.toList.splitOn ',').map fun piece => trim (String.ofList piece)).filter (· ≠ "") := by
  simp only [items, commaPieces, pieces_eq_splitOn, trim, String.toList_ofList]

/-- The items can be collected in whatever takes no other texts in. -/
theorem isSplitter_items {α : Type} [Membership String α] {collect : List String → α}
    (hcollect : ∀ xs, ∀ x ∈ collect xs, x ∈ xs) :
    IsSplitter collect fun s => collect (items s) where
  isListItem s x hx := (items_eq_iff.mp rfl).1 x (hcollect (items s) x hx)
  trimmed_pieces s := congrArg collect (items_eq_trimmed_pieces s)
  joined _ _ hxs hjoined := congrArg collect (items_eq_iff.mpr ⟨hxs, hjoined⟩)

namespace Config

theorem overlay_noDataValues {environment : String → Option String} {s : String}
    (h : environment Variable.noDataValues.name = some s) (c : Config) :
    (c.overlay environment).noDataValues = items s := by
  show ((environment Variable.noDataValues.name).map items).getD c.noDataValues = items s
  rw [h]
  rfl

/-- The sentinels of the settings where the environment sets them to a text. -/
def environmentSentinels (c : Config) (environment : String → Option String) (s : String) :
    List String :=
  (c.overlay (Function.update environment Variable.noDataValues.name (some s))).noDataValues

theorem environmentSentinels_eq (c : Config) (environment : String → Option String) :
    c.environmentSentinels environment = items := by
  funext s
  refine overlay_noDataValues ?_ c
  rw [Function.update_self]

end Config

/-- **Comma lists are split in the same way wherever they are read.** -/
theorem lists_split_alike (settings : Config) (environment : String → Option String) :
    IsSplitter SortedSet.ofList Query.listOf ∧
    IsSplitter id (settings.environmentSentinels environment) ∧
    IsSplitter id (fun s => (NoData.ofItems s).raw) ∧
    ∀ s, Query.listOf s = SortedSet.ofList (NoData.ofItems s).raw ∧
      settings.environmentSentinels environment s = (NoData.ofItems s).raw ∧
      ∀ d : Document, d.resolve? = some (.text s) →
        Config.sentinelsOf? d = some (NoData.ofItems s).raw := by
  have hlist : IsSplitter id items := isSplitter_items fun _ _ => id
  refine ⟨isSplitter_items fun _ _ => SortedSet.mem_ofList.mp, ?_, hlist, fun s =>
    ⟨rfl, ?_, fun d hd => ?_⟩⟩
  · rw [Config.environmentSentinels_eq]
    exact hlist
  · rw [Config.environmentSentinels_eq]
    rfl
  · rw [Config.sentinelsOf?, hd]
    rfl

example : Query.listOf "\u3000b,, a\u00a0b ,\t,b," = SortedSet.ofList ["a\u00a0b", "b"] := by decide

end Observatory
