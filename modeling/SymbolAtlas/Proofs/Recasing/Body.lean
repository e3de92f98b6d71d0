import SymbolAtlas.Proofs.Index.Field
import SymbolAtlas.Proofs.Text.LetterCase
import Mathlib.Tactic

/-!
# Bodies in another letter case

The name of an operation counts in any letter case, so that two bodies which differ in nothing but
the case of such names are read alike.  Argument lists are the exception: whether an item is an
argument or a value is told by the exact name, so that their items have to agree on that as well.
-/

namespace SymbolAtlas
namespace Body

open Building Attempt

/-- The keys of an operation, apart from its name, under which no other operation stands. -/
def plainKeys : List String :=
  ["file", "line", "column", "ref_kind", "property", "field", "event", "constructor", "type",
    "operator", "postfix"]

/-- An entry of a node beside one that may differ in the letter case of the operation's name, in the
items of its argument list or in another part of it. -/
inductive RecasedEntry (P R : Value → Value → Prop) : Value × Value → Value × Value → Prop where
  | same (entry : Value × Value) : RecasedEntry P R entry entry
  | name {s t : String} (hletters : Text.SameLetters s t) :
      RecasedEntry P R (.text "op", .text s) (.text "op", .text t)
  | arguments {items others : List Value}
      (hitems : List.Forall₂ P items others) (hparts : List.Forall₂ R items others) :
      RecasedEntry P R (.text "arguments", .list items) (.text "arguments", .list others)
  | part {key : String} {v w : Value} (hname : key ≠ "op") (hplain : key ∉ plainKeys)
      (hlist : key = "arguments" → v.isList = false) (hpart : R v w) :
      RecasedEntry P R (.text key, v) (.text key, w)

/-- Two bodies differ only in the case, within ASCII, of the letters in the names of operations, and
the items of argument lists are related.  What an invocation calls is no operation. -/
inductive Recased (P : Value → Value → Prop) : Value → Value → Prop where
  | same (v : Value) : Recased P v v
  | list {items others : List Value} (hitems : List.Forall₂ (Recased P) items others) :
      Recased P (.list items) (.list others)
  | mapping {entries others : List (Value × Value)}
      (hentries : List.Forall₂ (RecasedEntry P (Recased P)) entries others)
      (htarget : formOf (.mapping entries) = "invocation" →
        (Value.mapping others).field "target" = (Value.mapping entries).field "target") :
      Recased P (.mapping entries) (.mapping others)

/-- Both are arguments by themselves, or neither is. -/
def AgreeAsArguments (v w : Value) : Prop :=
  isArgument w = isArgument v

variable {P R : Value → Value → Prop} {entries others : List (Value × Value)}
  {v w node other : Value} {key : String}

/-! ## Entries -/

theorem RecasedEntry.key_eq {e o : Value × Value} (h : RecasedEntry P R e o) : o.1 = e.1 := by
  cases h <;> rfl

theorem get?_cases (h : List.Forall₂ (RecasedEntry P R) entries others) (key : String) :
    ((Value.mapping entries).get? key = none ∧ (Value.mapping others).get? key = none) ∨
      ∃ v w, (Value.mapping entries).get? key = some v ∧
        (Value.mapping others).get? key = some w ∧
          RecasedEntry P R (.text key, v) (.text key, w) :=
  Value.get?_cases (fun _ _ => RecasedEntry.key_eq) h key

theorem RecasedEntry.eq_of_plain (h : RecasedEntry P R (.text key, v) (.text key, w))
    (hkey : key ∈ plainKeys) : w = v := by
  cases h with
  | same => rfl
  | name => exact absurd hkey (by decide)
  | arguments => exact absurd hkey (by decide)
  | part _ hplain => exact absurd hkey hplain

theorem RecasedEntry.part_of_not_plain (hrefl : ∀ v, R v v)
    (h : RecasedEntry P R (.text key, v) (.text key, w)) (hname : key ≠ "op")
    (harguments : key ≠ "arguments") : R v w := by
  cases h with
  | same => exact hrefl v
  | name => exact absurd rfl hname
  | arguments => exact absurd rfl harguments
  | part _ _ _ hpart => exact hpart

theorem RecasedEntry.lower_eq (h : RecasedEntry P R (.text key, v) (.text key, w))
    (hkey : key = "op") : Text.lower w.plain = Text.lower v.plain := by
  cases h with
  | same => rfl
  | name hletters => exact hletters.lower_eq.symm
  | arguments => exact absurd hkey (by decide)
  | part hname => exact absurd hkey hname

theorem RecasedEntry.isWritable_eq (h : RecasedEntry P R (.text key, v) (.text key, w))
    (hkey : key = "op") : w.isWritable = v.isWritable := by
  cases h with
  | same => rfl
  | name => rfl
  | arguments => exact absurd hkey (by decide)
  | part hname => exact absurd hkey hname

theorem keys_eq (h : List.Forall₂ (RecasedEntry P R) entries others) :
    others.map Prod.fst = entries.map Prod.fst := by
  induction h with
  | nil => rfl
  | cons hfirst _ ih => rw [List.map_cons, List.map_cons, ih, hfirst.key_eq]

/-! ## Nodes -/

theorem Recased.isNull_eq (h : Recased P v w) : w.isNull = v.isNull := by
  cases h <;> rfl

theorem Recased.isPresent_eq (h : Recased P v w) : w.isPresent = v.isPresent := by
  cases h with
  | same => rfl
  | list hitems => cases hitems <;> rfl
  | mapping hentries => cases hentries <;> rfl

/-- What reading a node and another one of the same form goes by. -/
structure RecasedNode (P : Value → Value → Prop) (node other : Value) : Prop where
  form : formOf other = formOf node
  written : (other.fieldOr "op" (.text "block")).isWritable =
    (node.fieldOr "op" (.text "block")).isWritable
  plain : Value.SameAt plainKeys node other
  target : formOf node = "invocation" → other.field "target" = node.field "target"
  part : ∀ key, key ≠ "op" → key ≠ "arguments" → Recased P (node.field key) (other.field key)
  count : argumentCount other = argumentCount node
  arguments : Agrees (List.Forall₂ fun v w => P v w ∧ Recased P v w) (argumentList node)
    (argumentList other)

theorem agrees_of_eq (hP : ∀ v, P v v) {x y : Attempt (List Value)} (h : y = x) :
    Agrees (List.Forall₂ fun v w => P v w ∧ Recased P v w) x y := by
  rw [h]
  exact agrees_refl (fun items => List.forall₂_same.mpr fun v _ => ⟨hP v, .same v⟩) x

theorem recasedNode_refl (hP : ∀ v, P v v) (node : Value) : RecasedNode P node node where
  form := rfl
  written := rfl
  plain _ _ := rfl
  target _ := rfl
  part _ _ _ := .same _
  count := rfl
  arguments := agrees_of_eq hP rfl

/-- The value under the key of an argument list. -/
theorem arguments_cases (hP : ∀ v, P v v)
    (h : RecasedEntry P (Recased P) (.text key, v) (.text key, w)) (hkey : key = "arguments") :
    Agrees (List.Forall₂ fun v w => P v w ∧ Recased P v w) (allowing v.itemsIfPresent)
        (allowing w.itemsIfPresent) ∧
      w.isPresent = v.isPresent ∧ w.size? = v.size? := by
  have hself : ∀ x : Value, Agrees (List.Forall₂ fun v w => P v w ∧ Recased P v w)
      (allowing x.itemsIfPresent) (allowing x.itemsIfPresent) := fun _ => agrees_of_eq hP rfl
  cases h with
  | same => exact ⟨hself v, rfl, rfl⟩
  | name => exact absurd hkey (by decide)
  | @arguments items others hitems hparts =>
      have hlisted : ∀ listed, allowing (Value.list listed).itemsIfPresent = .ok listed := by
        intro listed
        cases listed <;> rfl
      refine ⟨?_, ?_, ?_⟩
      · rw [hlisted, hlisted]
        exact .ok (List.Forall₂.mp (fun _ _ => And.intro) hitems hparts)
      · cases hitems <;> rfl
      · exact congrArg Except.ok hitems.length_eq.symm
  | part _ _ hlist hpart =>
      have hpresent := hpart.isPresent_eq
      cases hpart with
      | same => exact ⟨hself v, rfl, rfl⟩
      | list => cases hlist hkey
      | @mapping entries others hentries _ =>
          have hitems : (Value.mapping others).items? = (Value.mapping entries).items? :=
            congrArg Except.ok (keys_eq hentries)
          refine ⟨agrees_of_eq hP ?_, hpresent, ?_⟩
          · unfold Value.itemsIfPresent
            rw [hpresent, hitems]
          · unfold Value.size?
            rw [hitems]

theorem recasedNode_of_recased (hP : ∀ v, P v v)
    (h : Recased P (.mapping entries) (.mapping others)) :
    RecasedNode P (.mapping entries) (.mapping others) := by
  cases h with
  | same => exact recasedNode_refl hP _
  | mapping hentries htarget =>
      have hfound := get?_cases hentries
      constructor
      case form =>
        unfold formOf Value.fieldOr
        rcases hfound "op" with ⟨hnone, hnone'⟩ | ⟨v, w, hv, hw, hentry⟩
        · rw [hnone, hnone']
        · rw [hv, hw, Option.getD_some, Option.getD_some, hentry.lower_eq rfl]
      case written =>
        unfold Value.fieldOr
        rcases hfound "op" with ⟨hnone, hnone'⟩ | ⟨v, w, hv, hw, hentry⟩
        · rw [hnone, hnone']
        · rw [hv, hw, Option.getD_some, Option.getD_some, hentry.isWritable_eq rfl]
      case plain =>
        intro key hkey
        rcases hfound key with ⟨hnone, hnone'⟩ | ⟨v, w, hv, hw, hentry⟩
        · rw [hnone, hnone']
        · rw [hv, hw, hentry.eq_of_plain hkey]
      case target => exact htarget
      case part =>
        intro key hname harguments
        unfold Value.field
        rcases hfound key with ⟨hnone, hnone'⟩ | ⟨v, w, hv, hw, hentry⟩
        · rw [hnone, hnone']
          exact .same _
        · rw [hv, hw]
          exact hentry.part_of_not_plain .same hname harguments
      case count =>
        unfold argumentCount Value.field
        rcases hfound "arguments" with ⟨hnone, hnone'⟩ | ⟨v, w, hv, hw, hentry⟩
        · rw [hnone, hnone']
        · obtain ⟨-, hpresent, hsize⟩ := arguments_cases hP hentry rfl
          simp only [hv, hw, Option.getD_some, hpresent, hsize]
      case arguments =>
        unfold argumentList Value.field
        rcases hfound "arguments" with ⟨hnone, hnone'⟩ | ⟨v, w, hv, hw, hentry⟩
        · rw [hnone, hnone']
          exact agrees_of_eq hP rfl
        · rw [hv, hw]
          exact (arguments_cases hP hentry rfl).1

namespace RecasedNode

variable (h : RecasedNode P node other)

include h

theorem location_eq (root : String) (around : Option String) (place : String) :
    Entry.location root other around place = Entry.location root node around place :=
  Entry.location_eq (h.plain.mono (by decide)) root around place

theorem required_target_eq (hform : formOf node = "invocation") (place : String) :
    Entry.required other "target" place = Entry.required node "target" place := by
  unfold Entry.required
  rw [h.target hform]

theorem member_eq (place : Place) (kind : SymbolKind) (hkey : key ∈ plainKeys) :
    member other place key kind = member node place key kind := by
  unfold member
  rw [Entry.required_eq h.plain hkey]

theorem constructorReference_eq (place : Place) :
    constructorReference other place = constructorReference node place := by
  unfold constructorReference
  rw [h.plain.field_eq (by decide), Entry.required_eq h.plain (by decide)]

end RecasedNode

/-! ## Reading -/

section

variable {read : Reader} (hread : ∀ v w, Recased P v w → read w = read v)

include hread

theorem optional_eq (h : Recased P (node.field key) (other.field key)) :
    optional read other key = optional read node key := by
  unfold optional
  generalize node.field key = v at h
  generalize other.field key = w at h
  simp only []
  rw [h.isNull_eq, hread v w h]

theorem needed_eq (place : Place) (h : Recased P (node.field key) (other.field key)) :
    needed read place other key = needed read place node key := by
  unfold needed Entry.required
  generalize node.field key = v at h
  generalize other.field key = w at h
  have hsame := hread v w h
  cases h with
  | same => rfl
  | list => exact hsame
  | mapping => exact hsame

theorem argument_eq (place : Place) (h : RecasedNode P node other) (parameter : Passing) :
    argument read place other parameter = argument read place node parameter := by
  unfold argument passingOf
  rw [h.plain.field_eq (by decide), h.location_eq,
    needed_eq hread place (h.part "value" (by decide) (by decide))]

end

section

variable {read : Reader} (hread : ∀ v w, Recased AgreeAsArguments v w → read w = read v)

include hread

theorem listedArgument_eq (place : Place) {item other : Value}
    (hagree : AgreeAsArguments item other) (h : Recased AgreeAsArguments item other)
    (parameter : Passing) :
    listedArgument read place other parameter = listedArgument read place item parameter := by
  unfold listedArgument
  rw [show isArgument other = isArgument item from hagree, hread item other h]
  split
  next hargument =>
    cases h with
    | same => rfl
    | list => cases hargument
    | mapping hentries htarget =>
        exact argument_eq hread place
          (recasedNode_of_recased (fun _ => rfl) (.mapping hentries htarget)) parameter
  next => rfl

theorem arguments_eq (place : Place) {items others : List Value}
    (h : List.Forall₂ (fun v w => AgreeAsArguments v w ∧ Recased AgreeAsArguments v w) items others)
    (parameters : List Parameter) :
    arguments read place parameters others = arguments read place parameters items := by
  induction h generalizing parameters with
  | nil => rfl
  | cons hfirst _ ih =>
      unfold arguments
      simp only []
      rw [listedArgument_eq hread place hfirst.1 hfirst.2, ih]

theorem argumentList_bind_eq {α : Type} (place : Place)
    (h : RecasedNode AgreeAsArguments node other) (parameters : List Parameter)
    (next : List Operation → Building α) :
    (liftM (argumentList other) >>= fun items => arguments read place parameters items >>= next) =
      liftM (argumentList node) >>= fun items =>
        arguments read place parameters items >>= next := by
  have hlists := h.arguments
  generalize argumentList node = x at hlists
  generalize argumentList other = y at hlists
  cases hlists with
  | error fault => rfl
  | @ok items others hitems =>
      have hsame := arguments_eq hread place hitems parameters
      change (arguments read place parameters others >>= next) =
        (arguments read place parameters items >>= next)
      rw [hsame]

theorem forAll_eq {items others : List Value}
    (h : List.Forall₂ (Recased AgreeAsArguments) items others) :
    forAll read others = forAll read items := by
  induction h with
  | nil => rfl
  | cons hfirst _ ih =>
      unfold forAll
      rw [hread _ _ hfirst, ih]

theorem childList_eq (h : RecasedNode AgreeAsArguments node other) :
    forAll read (childList other) = forAll read (childList node) := by
  have hpart := h.part "children" (by decide) (by decide)
  unfold childList
  generalize node.field "children" = v at hpart
  generalize other.field "children" = w at hpart
  simp only [hpart.isPresent_eq]
  split
  next =>
    cases hpart with
    | same => rfl
    | list hitems => exact forAll_eq hread hitems
    | mapping hentries htarget =>
        exact forAll_eq hread (.cons (.mapping hentries htarget) .nil)
  next => rfl

theorem operationOf_eq (place : Place) (h : RecasedNode AgreeAsArguments node other)
    (location : Option Location) {form : String} (hform : form = formOf node) :
    operationOf read place other location form = operationOf read place node location form := by
  have hvalue := needed_eq hread place (h.part "value" (by decide) (by decide))
  have htarget := needed_eq hread place (h.part "target" (by decide) (by decide))
  have hinstance := optional_eq hread (h.part "instance" (by decide) (by decide))
  unfold operationOf
  split
  next =>
    unfold invocation
    rw [h.required_target_eq hform.symm, h.count, hinstance]
    simp only [argumentList_bind_eq hread place h]
  next =>
    unfold creation
    rw [h.constructorReference_eq, h.count,
      optional_eq hread (h.part "initializer" (by decide) (by decide))]
    simp only [argumentList_bind_eq hread place h]
  next =>
    unfold propertyReference
    rw [h.member_eq place _ (by decide), hinstance]
    simp only [argumentList_bind_eq hread place h]
  next => rw [h.member_eq place _ (by decide), hinstance]
  next => rw [h.member_eq place _ (by decide), hinstance]
  next => rw [htarget, hvalue]
  next => rw [htarget, hvalue, h.plain.fieldOr_eq (by decide)]
  next =>
    unfold step
    rw [htarget, h.plain.fieldOr_eq (by decide)]
  next =>
    unfold step
    rw [htarget, h.plain.fieldOr_eq (by decide)]
  next => exact argument_eq hread place h .byValue
  next => rw [childList_eq hread h]

theorem operation_eq (place : Place) (h : RecasedNode AgreeAsArguments node other) :
    operation read place other = operation read place node := by
  have hwrite : Entry.mustWrite (other.fieldOr "op" (.text "block")) =
      Entry.mustWrite (node.fieldOr "op" (.text "block")) := by
    unfold Entry.mustWrite
    rw [h.written]
  unfold operation
  rw [hwrite, h.location_eq, h.form]
  congr 1
  funext _
  congr 1
  funext location
  exact operationOf_eq hread place h location rfl

end

theorem readWith_eq (place : Place) (fuel : Nat) (h : Recased AgreeAsArguments v w) :
    readWith place fuel w = readWith place fuel v := by
  induction fuel generalizing v w with
  | zero => rfl
  | succ fuel ih =>
      have hread : ∀ v w, Recased AgreeAsArguments v w →
          readWith place fuel w = readWith place fuel v := fun _ _ => ih
      cases h with
      | same => rfl
      | list hitems =>
          unfold readWith
          simp only [forAll_eq hread hitems]
      | mapping hentries htarget =>
          exact operation_eq hread place
            (recasedNode_of_recased (fun _ => rfl) (.mapping hentries htarget))

/-! ## Nesting -/

mutual

theorem depth_eq : ∀ {v w : Value}, Recased P v w → w.depth = v.depth
  | v, w, h => by
      cases h with
      | same => rfl
      | @list items others hitems =>
          rw [Value.depth, Value.depth, depthOfItems_eq hitems]
      | @mapping entries others hentries =>
          rw [Value.depth, Value.depth, depthOfEntries_eq hentries]

theorem depthOfItems_eq : ∀ {items others : List Value}, List.Forall₂ (Recased P) items others →
    Value.depthOfItems others = Value.depthOfItems items
  | [], _, h => by
      cases h
      rfl
  | v :: rest, _, h => by
      cases h with
      | cons hfirst hrest =>
          rw [Value.depthOfItems, Value.depthOfItems, depth_eq hfirst, depthOfItems_eq hrest]

theorem depthOfEntries_eq : ∀ {entries others : List (Value × Value)},
    List.Forall₂ (RecasedEntry P (Recased P)) entries others →
      Value.depthOfEntries others = Value.depthOfEntries entries
  | [], _, h => by
      cases h
      rfl
  | (_, v) :: rest, _, h => by
      cases h with
      | @cons _ o _ _ hfirst hrest =>
          have hvalue : o.2.depth = v.depth := by
            cases hfirst with
            | same => rfl
            | name => rfl
            | arguments _ hparts => rw [Value.depth, Value.depth, depthOfItems_eq hparts]
            | part _ _ _ hpart => exact depth_eq hpart
          rw [Value.depthOfEntries, Value.depthOfEntries, depthOfEntries_eq hrest, hvalue]

end

/-- Bodies that differ only in letter case, with items of argument lists that agree on whether they
are arguments, are read alike. -/
theorem read_eq (place : Place) (h : Recased AgreeAsArguments v w) :
    Body.read place w = Body.read place v := by
  unfold Body.read
  rw [depth_eq h]
  exact readWith_eq place _ h

end Body
end SymbolAtlas
