import SymbolAtlas.Proofs.Name.Signature
import SymbolAtlas.Proofs.Text.Cut
import Mathlib.Tactic

/-!
# Segments of dotted names

The segments of a name are what its dots leave apart.  A type is shown with dots for its plus signs,
so that its simple name is the last segment of what it is shown as.  The member that a name is
parted into is its last segment, unless that is a constructor's name or stands behind a dot with
nothing in front of it.
-/

namespace SymbolAtlas
namespace Signature

/-- The segments of a name, empty ones included. -/
def segments (name : String) : List (List Char) :=
  Text.splitWhere (· == '.') name.toList

/-- What stands behind the last dot of a name. -/
def lastSegment (name : String) : String :=
  String.ofList ((segments name).getLastD [])

/-- No segment of a type's name is empty, whether a dot or a plus sign sets it off. -/
def Segmented (type : String) : Prop :=
  [] ∉ Text.splitWhere (fun c => c == '.' || c == '+') type.toList

instance (type : String) : Decidable (Segmented type) :=
  inferInstanceAs (Decidable (_ ∉ _))

/-- A name that members have: a single segment, or a constructor's. -/
def IsMember (name : String) : Prop :=
  '.' ∉ name.toList ∨ name = constructorName ∨ name = staticConstructorName

variable {name path type member : String}

theorem segments_dotted (type name : String) :
    segments (type ++ "." ++ name) = segments type ++ segments name := by
  unfold segments
  rw [toList_dotted, Text.splitWhere_append_mark (by decide)]

theorem lastSegment_dotted (type name : String) :
    lastSegment (type ++ "." ++ name) = lastSegment name := by
  have hne : segments name ≠ [] := Text.splitWhere_ne_nil _ _
  unfold lastSegment
  rw [segments_dotted, List.getLastD_eq_getLast?, List.getLastD_eq_getLast?,
    List.getLast?_append_of_ne_nil _ hne]

theorem segments_of_undotted (h : '.' ∉ name.toList) : segments name = [name.toList] := by
  refine Text.splitWhere_eq_singleton ?_
  rintro c hc
  refine beq_false_of_ne ?_
  rintro rfl
  exact h hc

theorem lastSegment_of_undotted (h : '.' ∉ name.toList) : lastSegment name = name := by
  unfold lastSegment
  rw [segments_of_undotted h]
  exact String.ofList_toList

theorem undotted_lastSegment (name : String) : '.' ∉ (lastSegment name).toList := by
  have hne : segments name ≠ [] := Text.splitWhere_ne_nil _ _
  have hlast : (segments name).getLastD [] ∈ segments name := by
    rw [List.getLastD_eq_getLast?, List.getLast?_eq_some_getLast hne]
    exact List.getLast_mem hne
  unfold lastSegment
  rw [String.toList_ofList]
  intro hdot
  have hmark := Text.of_mem_splitWhere hlast '.' hdot
  simp at hmark

/-- A type is shown with the segments of its name. -/
theorem segments_exchange (type : String) : segments (Text.exchange '+' '.' type) =
    Text.splitWhere (fun c => c == '.' || c == '+') type.toList := by
  unfold segments Text.exchange
  rw [String.toList_ofList]
  refine Text.splitWhere_map ?_ ?_ type.toList
  · intro c
    by_cases hplus : c = '+' <;> simp [hplus]
  · intro c hc
    have hplus : c ≠ '+' := by
      rintro rfl
      simp at hc
    exact if_neg hplus

theorem lastSegment_exchange (type : String) :
    lastSegment (Text.exchange '+' '.' type) = simpleName type := by
  have hne := Text.splitWhere_ne_nil (fun c => c == '.' || c == '+') type.toList
  unfold lastSegment simpleName
  rw [segments_exchange, List.getLastD_eq_getLast?, List.getLast?_eq_some_getLast hne]
  rfl

/-- A cut at the last dot leaves the last segment behind it. -/
theorem eq_dotted_of_cutAtLast? {before after : List Char}
    (h : Text.cutAtLast? '.' path.toList = some (before, after)) :
    path = String.ofList before ++ "." ++ String.ofList after ∧
      lastSegment path = String.ofList after := by
  have hundotted : '.' ∉ (String.ofList after).toList := by
    rw [String.toList_ofList]
    exact Text.not_mem_of_cutAtLast? h
  have hpath : path = String.ofList before ++ "." ++ String.ofList after := by
    rw [← String.toList_inj, toList_dotted, String.toList_ofList, String.toList_ofList]
    exact Text.eq_append_of_cutAtLast? h
  refine ⟨hpath, ?_⟩
  rw [hpath, lastSegment_dotted, lastSegment_of_undotted hundotted]

/-- A path that ends with a constructor's name and its dot has `ctor` as its last segment. -/
theorem beforeEnding?_constructor (hctor : lastSegment path ≠ "ctor") :
    Text.beforeEnding? ('.' :: constructorName.toList) path.toList = none := by
  rw [Option.eq_none_iff_forall_ne_some]
  intro before hbefore
  have hpath : path = String.ofList before ++ "." ++ constructorName := by
    rw [← String.toList_inj, toList_dotted, String.toList_ofList]
    exact Text.beforeEnding?_eq_some_iff.mp hbefore
  rw [hpath, lastSegment_dotted] at hctor
  exact hctor (by decide)

/-- What a path is parted into behind its last dot is a name that members have. -/
theorem isMember_of_splitMember? (h : splitMember? path = some (type, member)) :
    IsMember member := by
  unfold splitMember? at h
  split at h
  next =>
    split at h
    next => cases h
    next =>
      cases h
      exact .inr (.inl rfl)
  next =>
    split at h
    next hcut =>
      cases h
      refine .inl ?_
      rw [String.toList_ofList]
      exact Text.not_mem_of_cutAtLast? hcut
    next => cases h

/-- A path is parted at its last dot, unless there is none or nothing in front of it. -/
theorem splitMember?_cases (hctor : lastSegment path ≠ "ctor") :
    (splitMember? path = none ∧ (lastSegment path = path ∨ [] ∈ (segments path).dropLast)) ∨
      ∃ type, splitMember? path = some (type, lastSegment path) := by
  unfold splitMember?
  rw [beforeEnding?_constructor hctor]
  simp only []
  cases hcut : Text.cutAtLast? '.' path.toList with
  | none =>
      have hundotted : '.' ∉ path.toList := by
        intro hdot
        obtain ⟨before, after, hsome⟩ := Text.exists_cutAtLast? hdot
        simp [hcut] at hsome
      exact .inl ⟨rfl, .inl (lastSegment_of_undotted hundotted)⟩
  | some parts =>
      obtain ⟨before, after⟩ := parts
      obtain ⟨hpath, hlast⟩ := eq_dotted_of_cutAtLast? hcut
      cases before with
      | nil =>
          refine .inl ⟨rfl, .inr ?_⟩
          have hafter : segments (String.ofList after) ≠ [] := Text.splitWhere_ne_nil _ _
          rw [hpath, segments_dotted, List.dropLast_append_of_ne_nil hafter]
          exact List.mem_append_left _ (by decide)
      | cons c type => exact .inr ⟨String.ofList (c :: type), by rw [hlast]⟩

end Signature
end SymbolAtlas
