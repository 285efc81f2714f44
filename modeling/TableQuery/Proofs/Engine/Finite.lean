import TableQuery.Proofs.Engine.Answers
import TableQuery.Proofs.Tabular.Texts
import TableQuery.Proofs.Value.Finite

/-!
# Results are finite

The values of a result are made of what a driver delivers or are texts of sheets. So its records
hold null, texts, integers and finite numbers, each with the value that it has.
-/

namespace TableQuery

/-- The values of a result are shown as they are, and its records hold no number that is infinite
or undefined. -/
structure ResultSet.Shown (result : ResultSet) : Prop where
  values : ∀ row ∈ result.rows, ∀ v ∈ row.values, v.Shown
  records : ∀ record ∈ result.records, ∀ field ∈ record, field.2.IsFinite

end TableQuery
