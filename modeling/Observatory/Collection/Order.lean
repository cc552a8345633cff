/-! Orders of ids and texts.

Sorted collections need an order that is transitive. Ids are in the order of their
values, texts in that of their characters. -/
namespace Observatory

instance transIds : Trans (fun a b : Int64 => a < b) (fun a b : Int64 => a < b)
    (fun a b : Int64 => a < b) :=
  ⟨Int64.lt_trans⟩

instance transTexts : Trans (fun a b : String => a < b) (fun a b : String => a < b)
    (fun a b : String => a < b) :=
  ⟨String.lt_trans⟩

end Observatory
