import SymbolAtlas.Proofs.Index.Location
import SymbolAtlas.Proofs.Path
import SymbolAtlas.Proofs.Snapshot.Innermost
import SymbolAtlas.Proofs.Snapshot.Reference
import Mathlib.Tactic

/-!
# Names at a position

An operation shows the name of the symbol that it carries, and the creation of an object that of the
type.  The name leads back to the symbol wherever no other name covers it, except where a creation
has taken the symbol itself for its constructor.  Everywhere else the innermost declaration counts.
-/

namespace SymbolAtlas

open Tables

namespace Mention

/-- A name covers the columns that it takes up on its line. -/
theorem covers_whole_iff {id : String} {l : Location} {length : Nat} {line column : Int} :
    (⟨id, l, some length⟩ : Mention).covers ⟨.whole line, .whole column⟩ = true ↔
      line = l.line ∧ l.column ≤ column ∧ column < l.column + length := by
  unfold covers
  simp only [Number.eq_whole, Number.le_whole, Number.lt_whole, Bool.and_eq_true,
    decide_eq_true_eq, and_assoc]

/-- The first mention of a symbol at a place shows its name, if all of them do. -/
theorem exists_token_of_forall {mentions : List Mention} {symbol : String} {l : Location}
    {length : Nat} (hmentioned : ∃ m ∈ mentions, m.symbol = symbol ∧ m.location = l)
    (hshown : ∀ m ∈ mentions, m.symbol = symbol → m.location = l → m.token = some length) :
    (⟨symbol, l, some length⟩ : Mention) ∈ distinct mentions := by
  obtain ⟨m, hm, hsymbol, hlocation⟩ :=
    (exists_mem_distinctFrom_iff [] mentions symbol l).mpr hmentioned
  have hmember := (mem_of_mem_distinctFrom hm).resolve_left List.not_mem_nil
  have htoken := hshown m hmember hsymbol hlocation
  obtain ⟨symbol, l, token⟩ := m
  cases hsymbol
  cases hlocation
  cases htoken
  exact hm

end Mention

namespace Tables

variable {t : Tables} {x s : Symbol} {m : Mention} {location : Option Location}

/-- What mentions a symbol by its name shows all of it. -/
theorem token_of_mem_tokenMention (hs : Holds t.symbols s) (hx : Holds t.symbols x)
    (hm : m ∈ tokenMention s location) (hid : m.symbol = x.id) : m.token = some x.name.length := by
  cases location with
  | none => cases hm
  | some l =>
      rw [tokenMention, List.mem_singleton] at hm
      subst hm
      have hget : t.symbols.get? s.id = some s := hs
      rw [show s.id = x.id from hid, hx] at hget
      rw [Option.some.inj hget]

/-- An operation mentions a symbol by its name, unless it takes it for a constructor. -/
theorem token_of_mem_mentionsIn (ht : t.Closed) (hx : Holds t.symbols x) {op : Operation}
    (hop : ∀ s, op.Names s → Holds t.symbols s) (hm : m ∈ t.mentionsIn op)
    (hid : m.symbol = x.id) :
    m.token = some x.name.length ∨
      op.location = some m.location ∧ op.constructor? = some x := by
  cases op with
  | invocation target receiver arguments location =>
      cases target with
      | none => cases hm
      | some target => exact .inl (token_of_mem_tokenMention (hop target (.inr rfl)) hx hm hid)
  | creation constructor arguments initializer location =>
      cases constructor with
      | none => cases hm
      | some constructor =>
          rcases List.mem_append.mp hm with hcontainer | hself
          · obtain ⟨s, hs, hm⟩ := List.mem_flatMap.mp hcontainer
            exact .inl (token_of_mem_tokenMention (holds_of_mem_symbolsOf ht.ids hs) hx hm hid)
          · obtain ⟨l, hl, rfl⟩ := List.mem_map.mp hself
            have hget : t.symbols.get? constructor.id = some constructor :=
              hop constructor (.inr rfl)
            rw [show constructor.id = x.id from hid, hx] at hget
            refine .inr ⟨Option.mem_toList.mp hl, ?_⟩
            exact congrArg some (Option.some.inj hget).symm
  | propertyReference property receiver arguments location =>
      exact .inl (token_of_mem_tokenMention (hop property (.inl rfl)) hx hm hid)
  | fieldReference field receiver location =>
      exact .inl (token_of_mem_tokenMention (hop field (.inl rfl)) hx hm hid)
  | eventReference event receiver location =>
      exact .inl (token_of_mem_tokenMention (hop event (.inl rfl)) hx hm hid)
  | _ => cases hm

/-- A creation at a place has taken a symbol for its constructor. -/
def CreatesWith (t : Tables) (l : Location) (x : Symbol) : Prop :=
  ∃ body ∈ t.bodies.values, ∃ op ∈ body.walk, op.location = some l ∧ op.constructor? = some x

/-- All mentions of a symbol show its name, unless a creation takes it for a constructor. -/
theorem token_of_mem_mentions (ht : t.Closed) (hx : Holds t.symbols x) (hm : m ∈ t.mentions)
    (hid : m.symbol = x.id) :
    m.token = some x.name.length ∨ t.CreatesWith m.location x := by
  rcases List.mem_append.mp hm with hbody | hlisted
  · obtain ⟨⟨method, body⟩, hentry, hm⟩ := List.mem_flatMap.mp hbody
    obtain ⟨op, hop, hm⟩ := List.mem_flatMap.mp hm
    have hsettled := (ht.refers.bodies _ hentry).2
    refine (token_of_mem_mentionsIn ht hx (hsettled op hop) hm hid).imp_right ?_
    rintro ⟨hlocation, hconstructor⟩
    exact ⟨body, Table.mem_values_iff.mpr ⟨method, hentry⟩, op, hop, hlocation, hconstructor⟩
  · obtain ⟨⟨owner, locations⟩, -, hm⟩ := List.mem_flatMap.mp hlisted
    obtain ⟨s, hs, hm⟩ := List.mem_flatMap.mp hm
    obtain ⟨l, -, hm⟩ := List.mem_flatMap.mp hm
    exact .inl (token_of_mem_tokenMention (holds_of_mem_symbolsOf ht.ids hs) hx hm hid)

end Tables

namespace Snapshot

variable {s : Snapshot} {x : Symbol} {op : Operation} {l : Location}

/-- An operation shows the name of a symbol: that of the symbol that it carries, or that of what
lies around the constructor of a creation. -/
def Shows (s : Snapshot) (op : Operation) (x : Symbol) : Prop :=
  (op.Names x ∧ op.constructor? = none) ∨ ∃ c, op.constructor? = some c ∧ s.containerOf? c = some x

theorem containing_of_containerOf? (hs : s.tables.Closed) {c : Symbol}
    (hcontainer : s.containerOf? c = some x) :
    s.tables.containing.get? c.id = some x.id ∧ Holds s.tables.symbols x := by
  obtain ⟨container, hlies, hget⟩ := Option.bind_eq_some_iff.mp hcontainer
  obtain rfl : x.id = container := hs.ids.get? hget
  exact ⟨hlies, hget⟩

/-- A file seen from a rooted directory is seen the same again. -/
theorem normalizePath_of_isRooted (hroot : Path.isAbsolute s.root = true) {file : String}
    (hfile : Entry.IsRooted s.root file) : s.normalizePath file = file := by
  obtain ⟨given, rfl⟩ := hfile
  exact Path.normalize_join_normalize_join hroot given

/-- Where no name covers a position, the innermost declaration around it counts. -/
theorem symbolAt?_eq_enclosing? (hroot : Path.isAbsolute s.root = true) {file : String}
    {p : Position} (hbare : ∀ m ∈ s.mentions, m.location.file = s.normalizePath file →
      m.covers p = false) : s.symbolAt? file p = s.enclosing? file p := by
  have htoken : s.tokenAt? file p = none := by
    have hnone : (s.mentions.find? fun m =>
        m.location.file == s.normalizePath file && m.covers p) = none := by
      rw [List.find?_eq_none]
      intro m hm
      rw [Bool.and_eq_true, beq_iff_eq, not_and, Bool.not_eq_true]
      exact hbare m hm
    unfold tokenAt?
    rw [hnone, Option.bind_none]
  have hfile : s.normalizePath (s.normalizePath file) = s.normalizePath file :=
    normalizePath_of_isRooted hroot ⟨file, rfl⟩
  have hsame : s.enclosing? (s.normalizePath file) p = s.enclosing? file p := by
    unfold enclosing?
    rw [hfile]
  unfold symbolAt?
  rw [htoken, hsame]
  rfl

/-- A name that covers a position leads to its symbol, unless another one covers it too. -/
theorem symbolAt?_of_mention {id : String} {length : Nat} {p : Position}
    (hx : s.symbol? id = some x) (hm : (⟨id, l, some length⟩ : Mention) ∈ s.mentions)
    (hfile : s.normalizePath l.file = l.file)
    (hcovers : (⟨id, l, some length⟩ : Mention).covers p = true) :
    s.symbolAt? l.file p = some x ∨
      ∃ m ∈ s.mentions, m.symbol ≠ id ∧ m.location.file = l.file ∧ m.covers p = true := by
  have hfound : (s.mentions.find? fun m =>
      m.location.file == s.normalizePath l.file && m.covers p).isSome = true := by
    refine List.find?_isSome.mpr ⟨_, hm, ?_⟩
    rw [hfile, hcovers]
    simp
  obtain ⟨first, hfirst⟩ := Option.isSome_iff_exists.mp hfound
  have hmeets := List.find?_some hfirst
  rw [hfile, Bool.and_eq_true, beq_iff_eq] at hmeets
  by_cases hid : first.symbol = id
  · refine .inl ?_
    unfold symbolAt? tokenAt?
    rw [hfirst, Option.bind_some, hid, hx]
    rfl
  · exact .inr ⟨first, List.mem_of_find?_eq_some hfirst, hid, hmeets⟩

/-- A name that an operation shows leads to its symbol from every column that it takes up, unless
the name of another symbol covers the column or a creation at that place has taken the symbol itself
for its constructor.  Where no name covers a position, the innermost declaration counts. -/
theorem symbolAt?_of_shows {disk : Disk} {data : Value} {root : String}
    {sourcePath : Option String} (hs : ofDocument disk data root sourcePath = .ok s)
    (hroot : Path.isAbsolute root = true) :
    (∀ body ∈ s.tables.bodies.values, ∀ op ∈ body.walk, ∀ l x, op.location = some l →
        s.Shows op x → ¬s.tables.CreatesWith l x →
        ∀ column : Int, l.column ≤ column → column < l.column + x.name.length →
          s.symbolAt? l.file ⟨.whole l.line, .whole column⟩ = some x ∨
            ∃ m ∈ s.mentions, m.symbol ≠ x.id ∧ m.location.file = l.file ∧
              m.covers ⟨.whole l.line, .whole column⟩ = true) ∧
      ∀ file p, (∀ m ∈ s.mentions, m.location.file = s.normalizePath file → m.covers p = false) →
        s.symbolAt? file p = s.enclosing? file p := by
  have ht := tables_of_ofDocument hs
  obtain rfl : s.root = root := by
    obtain ⟨t, -, -, rfl⟩ := ofDocument_eq_ok.mp hs
    rfl
  have hwell := Index.wellFormed_of_tables ht
  have hclosed := hwell.closed
  refine ⟨?_, fun file p => symbolAt?_eq_enclosing? hroot⟩
  intro body hbody op hop l x hlocation hshows hcreates column hleft hright
  have hfile := normalizePath_of_isRooted hroot (Index.isRooted_of_tables ht hbody hop hlocation)
  obtain ⟨method, hentry⟩ := Table.mem_values_iff.mp hbody
  have hx : Holds s.tables.symbols x := by
    rcases hshows with ⟨hnames, -⟩ | ⟨c, -, hcontainer⟩
    · exact (hclosed.refers.bodies _ hentry).2 op hop x hnames
    · exact (containing_of_containerOf? hclosed hcontainer).2
  have hmentioned : ∃ m ∈ s.tables.mentions, m.symbol = x.id ∧ m.location = l := by
    refine (exists_mem_mentions_iff hwell hx).mpr (.inl ⟨body, hbody, op, hop, hlocation, ?_⟩)
    refine hshows.imp And.left ?_
    rintro ⟨c, hc, hcontainer⟩
    exact ⟨c, hc, (containing_of_containerOf? hclosed hcontainer).1⟩
  have hmention : (⟨x.id, l, some x.name.length⟩ : Mention) ∈ s.mentions := by
    rw [s.mentions_eq]
    refine Mention.exists_token_of_forall hmentioned ?_
    intro m hm hid hl
    subst hl
    exact (token_of_mem_mentions hclosed hx hm hid).resolve_right hcreates
  exact symbolAt?_of_mention hx hmention hfile (Mention.covers_whole_iff.mpr ⟨rfl, hleft, hright⟩)

/-- The cart at the place where it is created. -/
theorem symbolAt?_of_shows_cart : ∃ s x,
    ofDocument .empty cartDocument "/work" none = .ok s ∧ Path.isAbsolute "/work" = true ∧
      x.id = "T:Cart" ∧
        (∃ body ∈ s.tables.bodies.values, ∃ op ∈ body.walk,
          op.location = some ⟨"/work/Cart.cs", 4, 9⟩ ∧ s.Shows op x) ∧
        ¬s.tables.CreatesWith ⟨"/work/Cart.cs", 4, 9⟩ x ∧
        s.symbolAt? "/work/Cart.cs" ⟨.whole 4, .whole 12⟩ = some x := by
  have hfacts : (ofDocument .empty cartDocument "/work" none).toOption.any (fun s => decide (
      (s.symbol? "T:Cart").any (fun x => decide (x.name = "Cart")) = true ∧
      (s.tables.bodies.values.any fun body => body.walk.any fun op =>
        decide (op.location = some ⟨"/work/Cart.cs", 4, 9⟩) && op.constructor?.any fun c =>
          decide ((s.containerOf? c).map Symbol.id = some "T:Cart")) = true ∧
      (s.tables.bodies.values.all fun body => body.walk.all fun op =>
        op.constructor?.all fun c => decide (c.id ≠ "T:Cart")) = true ∧
      (s.mentions.all fun m => decide (m.symbol = "T:Cart") ||
        !m.covers ⟨.whole 4, .whole 12⟩) = true)) = true := by
    decide +kernel
  obtain ⟨s, hs, hfacts⟩ := Attempt.exists_ok_of_any hfacts
  obtain ⟨hcart, hcreated, hconstructors, hothers⟩ := of_decide_eq_true hfacts
  have hclosed := (ofDocument_closed hs).1
  obtain ⟨x, hx, hid, hname⟩ := hclosed.exists_holds_of_any hcart
  have hname := of_decide_eq_true hname
  obtain ⟨body, hbody, hbelow⟩ := List.any_eq_true.mp hcreated
  obtain ⟨op, hop, hspot⟩ := List.any_eq_true.mp hbelow
  rw [Bool.and_eq_true, decide_eq_true_eq, Option.any_eq_true] at hspot
  obtain ⟨hlocation, c, hc, hcontainer⟩ := hspot
  have hshows : s.Shows op x := by
    obtain ⟨y, hy, hyid⟩ := Option.map_eq_some_iff.mp (of_decide_eq_true hcontainer)
    have hholds := (containing_of_containerOf? hclosed hy).2
    rw [Holds, hyid, ← hid, hx] at hholds
    exact .inr ⟨c, hc, Option.some.inj hholds ▸ hy⟩
  have hcreates : ¬s.tables.CreatesWith ⟨"/work/Cart.cs", 4, 9⟩ x := by
    rintro ⟨body, hbody, op, hop, -, hx⟩
    have hall := List.all_eq_true.mp (List.all_eq_true.mp hconstructors body hbody) op hop
    rw [Option.all_eq_true] at hall
    exact of_decide_eq_true (hall x hx) hid
  refine ⟨s, x, hs, by decide, hid, ⟨body, hbody, op, hop, hlocation, hshows⟩, hcreates, ?_⟩
  have hcolumn : (12 : Int) < 9 + x.name.length := by
    rw [hname]
    decide
  have hfound := (symbolAt?_of_shows hs (by decide)).1 body hbody op hop _ x hlocation hshows
    hcreates 12 (by decide) hcolumn
  refine hfound.resolve_right ?_
  rintro ⟨m, hm, hother, -, hcovers⟩
  have hone := List.all_eq_true.mp hothers m hm
  rw [Bool.or_eq_true, decide_eq_true_eq, ← hid] at hone
  simp [hother, hcovers] at hone

/-- A method that is called at the place of a creation whose type is written like the method, with
its parameter list. -/
def formatDocument : Value :=
  let format := .mapping [(.text "name", .text "Format"),
    (.text "parameters", .list [.text "int"])]
  let creation := .mapping [(.text "op", .text "new"), (.text "type", .text "Item.Format(int)"),
    (.text "line", .int 3), (.text "column", .int 5)]
  let call := .mapping [(.text "op", .text "call"), (.text "target", .text "Item.Format"),
    (.text "line", .int 3), (.text "column", .int 5)]
  let copy := .mapping [(.text "name", .text "Copy"), (.text "body", .list [creation, call])]
  .mapping [(.text "types", .list [.mapping [(.text "name", .text "Item"),
    (.text "file", .text "Item.cs"), (.text "members", .list [format, copy])]])]

/-- Nothing is found under the name of a method that is called, though no other name covers the
column: the method has been taken for a constructor there, and its name is not shown. -/
theorem not_found_of_created_method : ∃ s x,
    ofDocument .empty formatDocument "/work" none = .ok s ∧ s.symbol? x.id = some x ∧
      x.methodKind = some .ordinary ∧ x.name.length = 6 ∧
        (∃ body ∈ s.tables.bodies.values, ∃ op ∈ body.walk,
          op.location = some ⟨"/work/Item.cs", 3, 5⟩ ∧ op.callee? = some x ∧
            op.constructor? = none) ∧
        (∀ m ∈ s.mentions, m.covers ⟨.whole 3, .whole 9⟩ = false) ∧
        s.symbolAt? "/work/Item.cs" ⟨.whole 3, .whole 9⟩ = none := by
  have hfacts : (ofDocument .empty formatDocument "/work" none).toOption.any (fun s => decide (
      (s.symbol? "M:Item.Format(System.Int32)").any (fun x =>
        decide (x.methodKind = some .ordinary ∧ x.name.length = 6)) = true ∧
      (s.tables.bodies.values.any fun body => body.walk.any fun op =>
        decide (op.location = some ⟨"/work/Item.cs", 3, 5⟩ ∧ op.constructor? = none) &&
          op.callee?.any fun y => decide (y.id = "M:Item.Format(System.Int32)")) = true ∧
      (s.mentions.all fun m => !m.covers ⟨.whole 3, .whole 9⟩) = true ∧
      s.symbolAt? "/work/Item.cs" ⟨.whole 3, .whole 9⟩ = none)) = true := by
    decide +kernel
  obtain ⟨s, hs, hfacts⟩ := Attempt.exists_ok_of_any hfacts
  obtain ⟨hformat, hcalled, hbare, hnothing⟩ := of_decide_eq_true hfacts
  have hclosed := (ofDocument_closed hs).1
  obtain ⟨x, hx, hid, hmethod⟩ := hclosed.exists_holds_of_any hformat
  obtain ⟨hordinary, hlength⟩ := of_decide_eq_true hmethod
  refine ⟨s, x, hs, hx, hordinary, hlength, ?_, ?_, hnothing⟩
  · obtain ⟨body, hbody, hbelow⟩ := List.any_eq_true.mp hcalled
    obtain ⟨op, hop, hspot⟩ := List.any_eq_true.mp hbelow
    rw [Bool.and_eq_true, decide_eq_true_eq, Option.any_eq_true] at hspot
    obtain ⟨⟨hlocation, hnone⟩, y, hy, hyid⟩ := hspot
    obtain ⟨method, hentry⟩ := Table.mem_values_iff.mp hbody
    have hholds := (hclosed.refers.bodies _ hentry).2 op hop y (.inr hy)
    rw [Holds, of_decide_eq_true hyid, ← hid, hx] at hholds
    exact ⟨body, hbody, op, hop, hlocation, Option.some.inj hholds ▸ hy, hnone⟩
  · intro m hm
    simpa using List.all_eq_true.mp hbare m hm

end Snapshot
end SymbolAtlas
