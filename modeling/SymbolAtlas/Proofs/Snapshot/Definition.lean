import SymbolAtlas.Proofs.Index.Source
import SymbolAtlas.Proofs.Snapshot.Hierarchy
import SymbolAtlas.Tool.Query
import Mathlib.Tactic

/-!
# What a definition is said to be

The answer to a request for a definition says that a declaration in source was found, or else that
nothing but metadata is known.  A symbol without a place in source is answered by the type that its
entry redirects it to, which is said to be in source whether or not it has a place there.
-/

namespace SymbolAtlas
namespace Snapshot

open Index Tables

/-- An entry of the document declares a type and names another one as its source. -/
def RedirectedTo (s : Snapshot) (data : Value) (type source : Symbol) : Prop :=
  ∃ types, typesOf data = .ok types ∧ ∃ entry ∈ types, typeId entry = type.id ∧
    ∃ name, sourceName? entry = some name ∧ s.typeNamed? name = some source

variable {s : Snapshot} {disk : Disk} {data : Value} {root : String} {path : Option String}

/-- A symbol stands for itself if it is in source, and else for what its entry redirects it to. -/
theorem sourceOf?_eq_some_iff (hs : ofDocument disk data root path = .ok s)
    {symbol source : Symbol} : s.sourceOf? symbol = some source ↔
      symbol.inSource = true ∧ symbol = source ∨
        symbol.inSource = false ∧ s.RedirectedTo data symbol source := by
  obtain ⟨types, htypes, hredirects⟩ := redirects_of_tables (tables_of_ofDocument hs)
  have hredirected : (s.tables.sourceDefinitions.get? symbol.id).bind s.symbol? = some source ↔
      s.RedirectedTo data symbol source := by
    constructor
    · intro hsource
      obtain ⟨id, hid, hsource⟩ := Option.bind_eq_some_iff.mp hsource
      by_contra hnot
      have hnone := hredirects.others symbol.id ?_
      · rw [hid] at hnone
        cases hnone
      intro link hlink htype
      obtain ⟨entry, hentry, rfl⟩ := List.mem_map.mp hlink
      rw [Option.eq_none_iff_forall_ne_some]
      intro name hname
      obtain ⟨found, hfound, hlinked⟩ := hredirects.named _ hlink name hname
      have hsame : typeId entry = symbol.id := htype
      obtain rfl : id = found := by
        rw [← Option.some.injEq, ← hid, ← hlinked, hsame]
      refine hnot ⟨types, htypes, entry, hentry, htype, name, hname, ?_⟩
      exact Option.bind_eq_some_iff.mpr ⟨id, hfound, hsource⟩
    · rintro ⟨others, hothers, entry, hentry, htype, name, hname, hsource⟩
      obtain rfl : types = others := Except.ok.inj (htypes.symm.trans hothers)
      obtain ⟨id, hid, hsource⟩ := Option.bind_eq_some_iff.mp hsource
      obtain ⟨found, hfound, hlinked⟩ :=
        hredirects.named _ (List.mem_map_of_mem hentry) name hname
      obtain rfl : id = found := Option.some.inj (hid.symm.trans hfound)
      exact Option.bind_eq_some_iff.mpr ⟨id, htype ▸ hlinked, hsource⟩
  unfold sourceOf?
  cases hplace : symbol.inSource with
  | true => simp
  | false => simpa using hredirected

/-- Whatever a request for a definition answers, it tells of the symbol that its target names. -/
theorem gotoDefinition_eq_ok {config : Config} {arguments : Arguments} {answer : Answer}
    (hanswer : Query.gotoDefinition config (.ok s) arguments = .ok answer) :
    ∃ target symbol, ∃ request : Request, arguments.target = .ok target ∧
      s.resolve target false = .ok (.resolved symbol) ∧ request.snapshot = s ∧
        answer = .definition (request.define symbol) := by
  unfold Query.gotoDefinition at hanswer
  simp only [Attempt.bind_eq_ok] at hanswer
  obtain ⟨target, htarget, request, hrequest, symbol, hsymbol, hdefine⟩ := hanswer
  have hsnapshot : request.snapshot = s := by
    simp only [Request.start, Attempt.bind_eq_ok] at hrequest
    obtain ⟨_, hworkspace, _, -, _, -, hstart⟩ := hrequest
    cases hworkspace
    cases hstart
    rfl
  obtain ⟨found, hfound, hrequired⟩ := Attempt.bind_eq_ok.mp hsymbol
  have hresolved : found = .resolved symbol := by
    unfold Resolution.require at hrequired
    split at hrequired
    next => rw [Except.ok.inj hrequired]
    all_goals cases hrequired
  subst hsnapshot hresolved
  exact ⟨target, symbol, request, htarget, hfound, rfl, (Except.ok.inj hdefine).symm⟩

/-- The answer to every request for a definition is either in source or from metadata.  What is in
source has a place there, unless the symbol has none and its entry redirects it; what is from
metadata has no place in source and is redirected nowhere. -/
theorem definition_told (hs : ofDocument disk data root path = .ok s) (config : Config)
    {arguments : Arguments} {answer : Answer}
    (hanswer : Query.gotoDefinition config (.ok s) arguments = .ok answer) :
    ∃ target, ∃ d : Definition, arguments.target = .ok target ∧
      s.resolve target false = .ok (.resolved d.symbol) ∧ answer = .definition d ∧
      (d.isSource = true ↔ d.isMetadata = false) ∧
      (d.isSource = true → d.definition.inSource = true ∨
        d.symbol.inSource = false ∧ s.RedirectedTo data d.symbol d.definition) ∧
      (d.isMetadata = true → d.definition = d.symbol ∧ d.definition.inSource = false ∧
        ∀ source, ¬ s.RedirectedTo data d.symbol source) := by
  obtain ⟨target, symbol, request, htarget, hresolved, rfl, rfl⟩ := gotoDefinition_eq_ok hanswer
  refine ⟨target, request.define symbol, htarget, ?_, rfl, ?_⟩
  · unfold Request.define
    split <;> exact hresolved
  unfold Request.define
  split
  next source hsource =>
    refine ⟨by simp, fun _ => ?_, by simp⟩
    obtain ⟨hplace, rfl⟩ | hredirected := (sourceOf?_eq_some_iff hs).mp hsource
    · exact Or.inl hplace
    · exact Or.inr hredirected
  next hnone =>
    have hplace : symbol.inSource = false := by
      by_contra hplace
      have hself : request.snapshot.sourceOf? symbol = some symbol :=
        (sourceOf?_eq_some_iff hs).mpr (Or.inl ⟨by simpa using hplace, rfl⟩)
      rw [hnone] at hself
      cases hself
    refine ⟨by simp [hplace], by simp, fun _ => ⟨rfl, hplace, ?_⟩⟩
    intro source hredirected
    have hfound := (sourceOf?_eq_some_iff hs).mpr (Or.inr ⟨hplace, hredirected⟩)
    rw [hnone] at hfound
    cases hfound

/-- A helper in a library that stands for one of an application. -/
def helperDocument (place : List (Value × Value)) : Value :=
  .mapping [(.text "types", .list
    [ .mapping [(.text "name", .text "Lib.Helper"), (.text "metadata", .bool true),
        (.text "source_definition", .text "App.Helper")],
      .mapping ((.text "name", .text "App.Helper") :: place)])]

/-- The same with a place in source for the helper of the application. -/
def placedHelperDocument : Value :=
  helperDocument [(.text "file", .text "Helper.cs"), (.text "line", .int 3)]

/-- The arguments of a request about the helper in the library. -/
def helperArguments : Arguments :=
  ⟨[("fully_qualified_name", .text "Lib.Helper")]⟩

theorem definition_told_helper : ∃ s shown,
    ofDocument .empty placedHelperDocument "/work" none = .ok s ∧
      Query.gotoDefinition .standard (.ok s) helperArguments = .ok (.definition shown) ∧
      shown.isSource = true ∧ shown.definition.id = "T:App.Helper" ∧
      ∃ target, ∃ d : Definition, helperArguments.target = .ok target ∧
        s.resolve target false = .ok (.resolved d.symbol) ∧ .definition shown = Answer.definition d ∧
        (d.isSource = true ↔ d.isMetadata = false) ∧
        (d.isSource = true → d.definition.inSource = true ∨
          d.symbol.inSource = false ∧ s.RedirectedTo placedHelperDocument d.symbol d.definition) ∧
        (d.isMetadata = true → d.definition = d.symbol ∧ d.definition.inSource = false ∧
          ∀ source, ¬ s.RedirectedTo placedHelperDocument d.symbol source) := by
  have hloads : (ofDocument .empty placedHelperDocument "/work" none).toOption.any (fun s =>
      (Query.gotoDefinition .standard (.ok s) helperArguments).toOption.any
        fun answer => match answer with
          | .definition d => decide (d.isSource = true ∧ d.definition.id = "T:App.Helper")
          | _ => false) = true := by
    decide +kernel
  obtain ⟨s, hs, hanswers⟩ := Attempt.exists_ok_of_any hloads
  obtain ⟨answer, hanswer, htold⟩ := Attempt.exists_ok_of_any hanswers
  cases answer with
  | definition shown =>
      obtain ⟨hsource, hid⟩ := of_decide_eq_true htold
      exact ⟨s, shown, hs, hanswer, hsource, hid, definition_told hs .standard hanswer⟩
  | _ => cases htold

/-- A type that is redirected to one without a place is said to be in source all the same. -/
theorem told_in_source_without_place : ∃ s d,
    ofDocument .empty (helperDocument []) "/work" none = .ok s ∧
      Query.gotoDefinition .standard (.ok s) helperArguments = .ok (.definition d) ∧
      d.isSource = true ∧ d.definition.id = "T:App.Helper" ∧ d.definition.inSource = false := by
  have hloads : (ofDocument .empty (helperDocument []) "/work" none).toOption.any (fun s =>
      (Query.gotoDefinition .standard (.ok s) helperArguments).toOption.any
        fun answer => match answer with
          | .definition d => decide (d.isSource = true ∧ d.definition.id = "T:App.Helper" ∧
              d.definition.inSource = false)
          | _ => false) = true := by
    decide +kernel
  obtain ⟨s, hs, hanswers⟩ := Attempt.exists_ok_of_any hloads
  obtain ⟨answer, hanswer, htold⟩ := Attempt.exists_ok_of_any hanswers
  cases answer with
  | definition d => exact ⟨s, d, hs, hanswer, of_decide_eq_true htold⟩
  | _ => cases htold

end Snapshot
end SymbolAtlas
