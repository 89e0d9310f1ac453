import Mathlib.Data.List.Basic
import Mathlib.Data.List.Infix

/-!
# Labelled sequences

A sequence to which several sources contribute, each element with the label of
its source.  The sequence is an order-preserving merge of what the sources have
contributed when the elements of each label are, in order, those of its source.
-/

namespace TinierOS
namespace Labelled

universe u v

variable {κ : Type u} {β : Type v} [DecidableEq κ]

/-- The elements of one label, in order. -/
def part (log : List (κ × β)) (label : κ) : List β :=
  (log.filter fun entry => entry.1 = label).map Prod.snd

/-- The sequence is a merge of prefixes of the sources. -/
def MergesPrefixes (log : List (κ × β)) (source : κ → List β) : Prop :=
  ∀ label, part log label <+: source label

theorem part_append (log later : List (κ × β)) (label : κ) :
    part (log ++ later) label = part log label ++ part later label := by
  simp [part]

theorem part_singleton_self (label : κ) (value : β) :
    part [(label, value)] label = [value] := by
  simp [part]

theorem part_singleton_of_ne
    {label other : κ}
    (value : β)
    (different : label ≠ other) :
    part [(label, value)] other = [] := by
  simp [part, different]

theorem mem_part
    {log : List (κ × β)}
    {label : κ}
    {value : β}
    (member : (label, value) ∈ log) :
    value ∈ part log label :=
  List.mem_map.mpr ⟨(label, value),
    List.mem_filter.mpr ⟨member, decide_eq_true rfl⟩, rfl⟩

end Labelled
end TinierOS
