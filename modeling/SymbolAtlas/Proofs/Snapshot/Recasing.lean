import SymbolAtlas.Classification
import SymbolAtlas.Proofs.Recasing.Body
import SymbolAtlas.Proofs.Recasing.Document
import SymbolAtlas.Proofs.Snapshot.Complete
import Mathlib.Tactic

/-!
# Documents in another letter case

Names of operations may be written in any letter case: a document is read into the same snapshot,
or refused for the same reason, however they are written.  The name of an argument is the exception.
Under any other name than the exact one an item of an argument list is read as a value, which is
then passed as the parameter says, and what a method writes may show as read.
-/

namespace SymbolAtlas

namespace Index

/-- Two documents differ only in the case, within ASCII, of the letters in the names of operations,
and the items of argument lists are related. -/
def RecasedDocument (P : Value → Value → Prop) : Value → Value → Prop :=
  RebodiedDocument (Body.Recased P)

end Index

theorem Body.Recased.readAlike {v w : Value} (h : Body.Recased Body.AgreeAsArguments v w) :
    Body.ReadAlike v w where
  isNull := h.isNull_eq
  read place := Body.read_eq place h

namespace Snapshot

open Index

/-- The letter case of the names of operations makes no difference, as long as each item of an
argument list is an argument by itself in both documents or in neither. -/
theorem ofDocument_recased {data other : Value}
    (h : RecasedDocument Body.AgreeAsArguments data other) (disk : Disk) (root : String)
    (sourcePath : Option String) :
    ofDocument disk other root sourcePath = ofDocument disk data root sourcePath := by
  have hname : nameOf other root = nameOf data root := by
    unfold nameOf
    rw [h.field_eq (by decide)]
  unfold ofDocument
  rw [tables_eq_of_rebodied (fun _ _ hbody => hbody.readAlike) h, hname, h.field_eq (by decide)]

/-- The argument that a method hands to another one, a field. -/
def handedField (argument field : String) : Value :=
  .mapping [(.text "op", .text argument), (.text "value", .mapping
    [(.text "op", .text field), (.text "field", .text "Counter.total")])]

/-- A class with a method that hands a field to another method by reference. -/
def counterDocument (call argument field : String) : Value :=
  .mapping [(.text "types", .list [.mapping [(.text "name", .text "Counter"),
    (.text "members", .list [
      .mapping [(.text "name", .text "Reset"),
        (.text "parameters", .list [.text "ref int value"])],
      .mapping [(.text "kind", .text "field"), (.text "name", .text "total")],
      .mapping [(.text "name", .text "Go"), (.text "body", .mapping [(.text "op", .text call),
        (.text "target", .text "Counter.Reset"),
        (.text "arguments", .list [handedField argument field])])]])]])]

theorem recased_counterDocument {P : Value → Value → Prop} {call call' argument argument' field
    field' : String} (hcall : Text.SameLetters call call')
    (hargument : Text.SameLetters argument argument') (hfield : Text.SameLetters field field')
    (hP : P (handedField argument field) (handedField argument' field')) :
    RecasedDocument P (counterDocument call argument field)
      (counterDocument call' argument' field') := by
  have hhanded : Body.Recased P (handedField argument field) (handedField argument' field') := by
    refine .mapping (.cons (.name hargument) (.cons (.part (by decide) (by decide) ?_ ?_) .nil)) ?_
    · exact fun hkey => absurd hkey (by decide)
    · exact .mapping (.cons (.name hfield) (.cons (.same _) .nil)) fun _ => rfl
    · exact fun _ => rfl
  have hbody : Body.Recased P
      (.mapping [(.text "op", .text call), (.text "target", .text "Counter.Reset"),
        (.text "arguments", .list [handedField argument field])])
      (.mapping [(.text "op", .text call'), (.text "target", .text "Counter.Reset"),
        (.text "arguments", .list [handedField argument' field'])]) :=
    .mapping (.cons (.name hcall) (.cons (.same _)
      (.cons (.arguments (.cons hP .nil) (.cons hhanded .nil)) .nil))) fun _ => rfl
  refine .mapping (.cons ⟨rfl, .inr ⟨rfl, .list (.cons ?_ .nil)⟩⟩ .nil)
  refine .mapping (.cons ⟨rfl, .inl rfl⟩ (.cons ⟨rfl, .inr ⟨rfl, .list ?_⟩⟩ .nil))
  refine .cons (.same _) (.cons (.same _) (.cons (.mapping ?_) .nil))
  exact .cons ⟨rfl, .inl rfl⟩ (.cons ⟨rfl, .inr ⟨"body", rfl, .body hbody⟩⟩ .nil)

/-- With the field named as a field in capitals, it is written all the same. -/
theorem ofDocument_recased_counter : ∃ s go,
    RecasedDocument Body.AgreeAsArguments (counterDocument "call" "argument" "field")
        (counterDocument "Call" "argument" "FIELD") ∧
      ofDocument .empty (counterDocument "call" "argument" "field") "/work" none = .ok s ∧
      ofDocument .empty (counterDocument "Call" "argument" "FIELD") "/work" none = .ok s ∧
      s.symbol? "M:Counter.Go()" = some go ∧
      (s.classify true go).writes.map Symbol.id = ["F:Counter.total"] := by
  have hfacts : (ofDocument .empty (counterDocument "call" "argument" "field") "/work"
      none).toOption.any (fun s => (s.symbol? "M:Counter.Go()").any fun go =>
        decide ((s.classify true go).writes.map Symbol.id = ["F:Counter.total"])) = true := by
    decide +kernel
  obtain ⟨s, hs, hfacts⟩ := Attempt.exists_ok_of_any hfacts
  obtain ⟨go, hgo, hwrites⟩ := (Option.any_eq_true _ _).mp hfacts
  have hrecased : RecasedDocument Body.AgreeAsArguments (counterDocument "call" "argument" "field")
      (counterDocument "Call" "argument" "FIELD") :=
    recased_counterDocument (by decide) rfl (by decide) rfl
  exact ⟨s, go, hrecased, hs, (ofDocument_recased hrecased .empty "/work" none).trans hs, hgo,
    of_decide_eq_true hwrites⟩

/-- The same field is read, not written, if the name of the argument begins with a capital. -/
theorem reads_by_capital_argument : ∃ s t go go',
    RecasedDocument (fun _ _ => True) (counterDocument "call" "argument" "field")
        (counterDocument "call" "Argument" "field") ∧
      ofDocument .empty (counterDocument "call" "argument" "field") "/work" none = .ok s ∧
      ofDocument .empty (counterDocument "call" "Argument" "field") "/work" none = .ok t ∧
      s.symbol? "M:Counter.Go()" = some go ∧ t.symbol? "M:Counter.Go()" = some go' ∧
      (s.classify true go).reads.map Symbol.id = [] ∧
      (s.classify true go).writes.map Symbol.id = ["F:Counter.total"] ∧
      (t.classify true go').reads.map Symbol.id = ["F:Counter.total"] ∧
      (t.classify true go').writes.map Symbol.id = [] := by
  have hfacts : (ofDocument .empty (counterDocument "call" "argument" "field") "/work"
      none).toOption.any (fun s => (s.symbol? "M:Counter.Go()").any fun go =>
        decide ((s.classify true go).reads.map Symbol.id = [] ∧
          (s.classify true go).writes.map Symbol.id = ["F:Counter.total"])) = true := by
    decide +kernel
  have hcapital : (ofDocument .empty (counterDocument "call" "Argument" "field") "/work"
      none).toOption.any (fun t => (t.symbol? "M:Counter.Go()").any fun go =>
        decide ((t.classify true go).reads.map Symbol.id = ["F:Counter.total"] ∧
          (t.classify true go).writes.map Symbol.id = [])) = true := by
    decide +kernel
  obtain ⟨s, hs, hfacts⟩ := Attempt.exists_ok_of_any hfacts
  obtain ⟨go, hgo, hfacts⟩ := (Option.any_eq_true _ _).mp hfacts
  obtain ⟨hreads, hwrites⟩ := of_decide_eq_true hfacts
  obtain ⟨t, ht, hcapital⟩ := Attempt.exists_ok_of_any hcapital
  obtain ⟨go', hgo', hcapital⟩ := (Option.any_eq_true _ _).mp hcapital
  obtain ⟨hreads', hwrites'⟩ := of_decide_eq_true hcapital
  exact ⟨s, t, go, go', recased_counterDocument rfl (by decide) rfl trivial, hs, ht, hgo, hgo',
    hreads, hwrites, hreads', hwrites'⟩

end Snapshot
end SymbolAtlas
