import SymbolAtlas.Name.Signature
import SymbolAtlas.Proofs.Text.Blank
import SymbolAtlas.Proofs.Text.Cut
import Mathlib.Tactic

/-!
# Signatures read back

A qualified name that is put together from a type, a member and a list of parameter types is taken
apart into the same three.  The list is cut right as long as every type in it closes the brackets
that it opens and has its commas inside of them, whatever blanks stand around the types.  The member
is found as long as the dot in front of it is the last one and does not make a constructor's name of
it.
-/

namespace SymbolAtlas
namespace Signature

/-! ## Lists of types that match -/

theorem typesMatch_iff {as bs : List String} :
    typesMatch as bs = true ↔ as.map TypeName.canonical = bs.map TypeName.canonical := by
  induction as generalizing bs with
  | nil => cases bs <;> simp [typesMatch]
  | cons a as ih => cases bs <;> simp [typesMatch, ih]

theorem typesMatch_refl (types : List String) : typesMatch types types = true :=
  typesMatch_iff.mpr rfl

theorem typesMatch_congr {as as' bs bs' : List String}
    (has : as'.map TypeName.canonical = as.map TypeName.canonical)
    (hbs : bs'.map TypeName.canonical = bs.map TypeName.canonical) :
    typesMatch as' bs' = typesMatch as bs := by
  rw [Bool.eq_iff_iff, typesMatch_iff, typesMatch_iff, has, hbs]

/-! ## Parameter lists -/

/-- The bracket depth behind a text. -/
def depthThrough (depth : Int) (cs : List Char) : Int :=
  cs.foldl depthAfter depth

/-- No comma of a text stands outside of all brackets. -/
def Covered : Int → List Char → Prop
  | _, [] => True
  | depth, c :: rest => (c = ',' → depth ≠ 0) ∧ Covered (depthAfter depth c) rest

instance decidableCovered : (depth : Int) → (cs : List Char) → Decidable (Covered depth cs)
  | _, [] => inferInstanceAs (Decidable True)
  | depth, c :: rest =>
      have := decidableCovered (depthAfter depth c) rest
      inferInstanceAs (Decidable ((c = ',' → depth ≠ 0) ∧ Covered (depthAfter depth c) rest))

/-- A type that a parameter list may hold: trimmed, not empty, with as many brackets closed as
opened and no comma outside of them. -/
structure Listable (type : String) : Prop where
  trimmed : Text.trim type = type
  nonempty : type ≠ ""
  balanced : depthThrough 0 type.toList = 0
  covered : Covered 0 type.toList

variable {depth : Int} {cs rest : List Char}

theorem splitAtDepth_ne_nil (depth : Int) (cs : List Char) : splitAtDepth depth cs ≠ [] := by
  cases cs with
  | nil => simp [splitAtDepth]
  | cons c rest =>
      unfold splitAtDepth
      simp only []
      split
      next => simp
      next => split <;> simp

/-- A comma outside of all brackets ends a piece. -/
theorem splitAtDepth_comma (rest : List Char) :
    splitAtDepth 0 (',' :: rest) = [] :: splitAtDepth 0 rest :=
  rfl

/-- Any other character goes with the piece behind it. -/
theorem splitAtDepth_cons {c : Char} (hc : c = ',' → depth ≠ 0) :
    splitAtDepth depth (c :: rest) =
      (splitAtDepth (depthAfter depth c) rest).modifyHead (c :: ·) := by
  have hcut : (c == ',' && depthAfter depth c == 0) = false := by
    by_cases hcomma : c = ','
    · subst hcomma
      simpa [depthAfter, opensBracket, closesBracket] using hc rfl
    · simp [hcomma]
  rw [splitAtDepth]
  simp only [hcut]
  cases hpieces : splitAtDepth (depthAfter depth c) rest with
  | nil => exact absurd hpieces (splitAtDepth_ne_nil _ _)
  | cons piece pieces => rfl

theorem depthThrough_append (depth : Int) (cs rest : List Char) :
    depthThrough depth (cs ++ rest) = depthThrough (depthThrough depth cs) rest :=
  List.foldl_append

theorem covered_append :
    Covered depth (cs ++ rest) ↔ Covered depth cs ∧ Covered (depthThrough depth cs) rest := by
  induction cs generalizing depth with
  | nil => simp [Covered, depthThrough]
  | cons c cs ih =>
      rw [List.cons_append, Covered, Covered, ih, and_assoc]
      rfl

/-- A text without commas outside of brackets goes with the piece behind it as a whole. -/
theorem splitAtDepth_append (h : Covered depth cs) (rest : List Char) :
    splitAtDepth depth (cs ++ rest) =
      (splitAtDepth (depthThrough depth cs) rest).modifyHead (cs ++ ·) := by
  induction cs generalizing depth with
  | nil => cases hpieces : splitAtDepth depth rest <;> simp [depthThrough, hpieces]
  | cons c cs ih =>
      rw [List.cons_append, splitAtDepth_cons h.1, ih h.2, List.modifyHead_modifyHead]
      rfl

/-- The pieces of a joined list are its items. -/
theorem splitAtDepth_intercalate (first : List Char) (others : List (List Char))
    (hitems : ∀ item ∈ first :: others, depthThrough 0 item = 0 ∧ Covered 0 item) :
    splitAtDepth 0 ([','].intercalate (first :: others)) = first :: others := by
  induction others generalizing first with
  | nil =>
      obtain ⟨hclosed, hcovered⟩ := hitems first List.mem_cons_self
      have hpieces := splitAtDepth_append hcovered []
      rw [hclosed, List.append_nil] at hpieces
      rw [List.intercalate_singleton, hpieces]
      simp [splitAtDepth]
  | cons second others ih =>
      obtain ⟨hclosed, hcovered⟩ := hitems first List.mem_cons_self
      have hrest := ih second fun item hitem => hitems item (List.mem_cons_of_mem first hitem)
      rw [List.intercalate_cons_cons, List.append_assoc, splitAtDepth_append hcovered, hclosed,
        List.singleton_append, splitAtDepth_comma, hrest]
      simp

section Padding

variable {blanks : List Char}

theorem depthAfter_blank {c : Char} (hc : Text.isBlank c = true) (depth : Int) :
    depthAfter depth c = depth := by
  have hne : ∀ mark, Text.isBlank mark = false → c ≠ mark := by
    rintro mark hmark rfl
    rw [hmark] at hc
    cases hc
  simp [depthAfter, opensBracket, closesBracket, hne '<' rfl, hne '[' rfl, hne '(' rfl, hne '>' rfl,
    hne ']' rfl, hne ')' rfl]

/-- Blanks change no depth and hold no comma. -/
theorem depthThrough_blanks (hblanks : ∀ c ∈ blanks, Text.isBlank c = true) (depth : Int) :
    depthThrough depth blanks = depth ∧ Covered depth blanks := by
  induction blanks with
  | nil => exact ⟨rfl, trivial⟩
  | cons c blanks ih =>
      have ⟨hc, hrest⟩ := List.forall_mem_cons.mp hblanks
      obtain ⟨hdepth, hcovered⟩ := ih hrest
      have hcomma : c = ',' → depth ≠ 0 := by
        rintro rfl
        exact absurd hc (by decide)
      have hsame := depthAfter_blank hc depth
      exact ⟨by rwa [depthThrough, List.foldl_cons, hsame], hcomma, by rwa [hsame]⟩

/-- Blanks in front of a list go with its first piece, so that its trimmed pieces stay the same. -/
theorem map_trimChars_append_left (hblanks : ∀ c ∈ blanks, Text.isBlank c = true)
    (cs : List Char) :
    (splitAtDepth 0 (blanks ++ cs)).map Text.trimChars =
      (splitAtDepth 0 cs).map Text.trimChars := by
  obtain ⟨hdepth, hcovered⟩ := depthThrough_blanks hblanks 0
  rw [splitAtDepth_append hcovered, hdepth]
  cases splitAtDepth 0 cs with
  | nil => rfl
  | cons piece pieces =>
      have hpiece := Text.trimChars_between hblanks (List.forall_mem_nil _) piece
      rw [List.append_nil] at hpiece
      rw [List.modifyHead_cons, List.map_cons, List.map_cons, hpiece]

/-- Blanks behind a list go with its last piece. -/
theorem exists_last_piece (hblanks : ∀ c ∈ blanks, Text.isBlank c = true) (depth : Int)
    (cs : List Char) :
    ∃ pieces last, splitAtDepth depth cs = pieces ++ [last] ∧
      splitAtDepth depth (cs ++ blanks) = pieces ++ [last ++ blanks] := by
  induction cs generalizing depth with
  | nil =>
      have hpieces := splitAtDepth_append (depthThrough_blanks hblanks depth).2 []
      refine ⟨[], [], rfl, ?_⟩
      rw [List.append_nil] at hpieces
      rw [List.nil_append, hpieces]
      simp [splitAtDepth]
  | cons c cs ih =>
      by_cases hcut : c = ',' ∧ depth = 0
      · obtain ⟨rfl, rfl⟩ := hcut
        obtain ⟨pieces, last, hcs, hpadded⟩ := ih 0
        refine ⟨[] :: pieces, last, ?_, ?_⟩
        · rw [splitAtDepth_comma, hcs, List.cons_append]
        · rw [List.cons_append, splitAtDepth_comma, hpadded, List.cons_append]
      · have hc : c = ',' → depth ≠ 0 := fun hcomma hdepth => hcut ⟨hcomma, hdepth⟩
        obtain ⟨pieces, last, hcs, hpadded⟩ := ih (depthAfter depth c)
        rw [List.cons_append, splitAtDepth_cons hc, splitAtDepth_cons hc, hcs, hpadded]
        cases pieces with
        | nil => exact ⟨[], c :: last, rfl, rfl⟩
        | cons piece pieces => exact ⟨(c :: piece) :: pieces, last, rfl, rfl⟩

theorem map_trimChars_append_right (hblanks : ∀ c ∈ blanks, Text.isBlank c = true)
    (cs : List Char) :
    (splitAtDepth 0 (cs ++ blanks)).map Text.trimChars =
      (splitAtDepth 0 cs).map Text.trimChars := by
  obtain ⟨pieces, last, hcs, hpadded⟩ := exists_last_piece hblanks 0 cs
  have hlast := Text.trimChars_between (List.forall_mem_nil _) hblanks last
  rw [List.nil_append] at hlast
  rw [hcs, hpadded, List.map_append, List.map_append, List.map_singleton, List.map_singleton, hlast]

/-- A list has the same parameters as the list without the blanks around it. -/
theorem parameters_trim (list : String) : parameters (Text.trim list) = parameters list := by
  obtain ⟨before, after, hbefore, hafter, hlist⟩ := Text.exists_eq_between list.toList
  have hpieces : (splitAtDepth 0 (Text.trimChars list.toList)).map Text.trimChars =
      (splitAtDepth 0 list.toList).map Text.trimChars := by
    conv_rhs => rw [hlist]
    rw [map_trimChars_append_left hbefore, map_trimChars_append_right hafter]
  unfold parameters Text.trim
  rw [String.toList_ofList, hpieces]

/-- A piece that trims to a type which closes its brackets does so itself, with no comma outside. -/
theorem Listable.padded {piece : String} (h : Listable (Text.trim piece)) :
    depthThrough 0 piece.toList = 0 ∧ Covered 0 piece.toList := by
  obtain ⟨before, after, hbefore, hafter, hpiece⟩ := Text.exists_eq_between piece.toList
  obtain ⟨hdepth, hcovered⟩ := depthThrough_blanks hbefore 0
  obtain ⟨hdepth', hcovered'⟩ := depthThrough_blanks hafter 0
  have htype : (Text.trim piece).toList = Text.trimChars piece.toList := String.toList_ofList
  have hbalanced := h.balanced
  have hinside := h.covered
  rw [htype] at hbalanced hinside
  rw [hpiece]
  constructor
  · rw [depthThrough_append, hdepth, depthThrough_append, hbalanced, hdepth']
  · rw [covered_append, hdepth, covered_append, hbalanced]
    exact ⟨hcovered, hinside, hcovered'⟩

end Padding

/-- A list that has been joined is cut into what was joined, whatever blanks stand around it. -/
theorem parameters_intercalate {pieces : List String}
    (h : ∀ piece ∈ pieces, Listable (Text.trim piece)) :
    parameters (",".intercalate pieces) = pieces.map Text.trim := by
  cases pieces with
  | nil => rfl
  | cons first others =>
      have hitems : ∀ item ∈ first.toList :: others.map String.toList,
          depthThrough 0 item = 0 ∧ Covered 0 item := by
        rw [← List.map_cons]
        intro item hitem
        obtain ⟨piece, hpiece, rfl⟩ := List.mem_map.mp hitem
        exact (h piece hpiece).padded
      have hkept : ∀ item ∈ ((first :: others).map String.toList).map Text.trimChars,
          (!item.isEmpty) = true := by
        rw [List.map_map]
        intro item hitem
        obtain ⟨piece, hpiece, rfl⟩ := List.mem_map.mp hitem
        have hnonempty := (h piece hpiece).nonempty
        simpa [Text.trim] using hnonempty
      have hcomma : ",".toList = [','] := rfl
      unfold parameters
      rw [String.toList_intercalate, List.map_cons, hcomma, splitAtDepth_intercalate _ _ hitems,
        ← List.map_cons, List.filter_eq_self.mpr hkept, List.map_map, List.map_map]
      rfl

theorem trim_blank_append (type : String) : Text.trim (" " ++ type) = Text.trim type := by
  have hblank : Text.trimChars ([' '] ++ (type.toList ++ [])) = Text.trimChars type.toList :=
    Text.trimChars_between (List.forall_mem_singleton.mpr rfl) (List.forall_mem_nil _) type.toList
  unfold Text.trim
  rw [String.toList_append, ← hblank, List.append_nil]
  rfl

/-- A blank behind a comma stands in front of the next item. -/
theorem intercalate_blank (first : String) (others : List String) :
    ", ".intercalate (first :: others) = ",".intercalate (first :: others.map (" " ++ ·)) := by
  induction others generalizing first with
  | nil => rw [List.map_nil, String.intercalate_singleton, String.intercalate_singleton]
  | cons second others ih =>
      have hcomma : ", " = "," ++ " " := rfl
      rw [List.map_cons, String.intercalate_cons_cons, String.intercalate_cons_cons,
        String.intercalate_cons_append, ih, hcomma, String.append_assoc, String.append_assoc,
        String.append_assoc]

/-- A list that has been joined with a blank behind every comma is cut into the same types. -/
theorem parameters_intercalate_blank {types : List String} (h : ∀ type ∈ types, Listable type) :
    parameters (", ".intercalate types) = types := by
  cases types with
  | nil => rfl
  | cons first others =>
      have htrimmed : (first :: others.map (" " ++ ·)).map Text.trim = first :: others := by
        have hkept : ∀ type ∈ others, (Text.trim ∘ (" " ++ ·)) type = id type := fun type htype =>
          (trim_blank_append type).trans (h type (List.mem_cons_of_mem first htype)).trimmed
        rw [List.map_cons, (h first List.mem_cons_self).trimmed, List.map_map,
          List.map_congr_left hkept, List.map_id]
      have hlistable : ∀ piece ∈ first :: others.map (" " ++ ·), Listable (Text.trim piece) := by
        intro piece hpiece
        have htrim : Text.trim piece ∈ first :: others :=
          htrimmed ▸ List.mem_map_of_mem hpiece
        exact h _ htrim
      rw [intercalate_blank, parameters_intercalate hlistable, htrimmed]

theorem intercalate_ne_nil {first : List Char} (hfirst : first ≠ [])
    (others : List (List Char)) : [',', ' '].intercalate (first :: others) ≠ [] := by
  cases others with
  | nil => rwa [List.intercalate_singleton]
  | cons second rest => simp [List.intercalate_cons_cons]

theorem trimChars_intercalate {items : List (List Char)}
    (h : ∀ item ∈ items, Text.trimChars item = item ∧ item ≠ []) :
    Text.trimChars ([',', ' '].intercalate items) = [',', ' '].intercalate items := by
  induction items with
  | nil => rfl
  | cons first others ih =>
      obtain ⟨hfirst, hnonempty⟩ := h first List.mem_cons_self
      have hothers := ih fun item hitem => h item (List.mem_cons_of_mem first hitem)
      cases others with
      | nil => rwa [List.intercalate_singleton]
      | cons second rest =>
          have hsecond := (h second (by simp)).2
          rw [List.intercalate_cons_cons, List.append_assoc]
          exact Text.trimChars_append hfirst hnonempty _ hothers (intercalate_ne_nil hsecond rest)

/-- A list of types that has been joined has no blanks around it. -/
theorem trim_intercalate {types : List String} (h : ∀ type ∈ types, Listable type) :
    Text.trim (", ".intercalate types) = ", ".intercalate types := by
  have hitems : ∀ item ∈ types.map String.toList, Text.trimChars item = item ∧ item ≠ [] := by
    intro item hitem
    obtain ⟨type, htype, rfl⟩ := List.mem_map.mp hitem
    have hnonempty := (h type htype).nonempty
    exact ⟨Text.trim_eq_self_iff.mp (h type htype).trimmed, by simpa using hnonempty⟩
  rw [Text.trim_eq_self_iff, String.toList_intercalate]
  exact trimChars_intercalate hitems

/-! ## Names with a list, members of types -/

/-- A name without a list has none. -/
theorem split_eq_self {name : String} (hopen : '(' ∉ name.toList) (hname : Text.trim name = name) :
    split name = (name, none) := by
  unfold split
  rw [Text.cutAtFirst?_eq_none hopen]
  simp only [hname]

/-- A name is parted from the list in the parentheses behind it. -/
theorem split_call {base : String} (hopen : '(' ∉ base.toList) (hbase : Text.trim base = base)
    (list : String) :
    split (base ++ "(" ++ list ++ ")") = (base, some (Text.trim list)) := by
  have hname : (base ++ "(" ++ list ++ ")").toList =
      base.toList ++ '(' :: (list.toList ++ [')']) := by
    simp
  unfold split
  rw [hname, Text.cutAtFirst?_append hopen]
  simp only []
  rw [Text.cutAtLast?_append List.not_mem_nil]
  simp only []
  rw [Text.trim_eq_self_iff.mp hbase, String.ofList_toList]
  rfl

theorem toList_dotted (type name : String) :
    (type ++ "." ++ name).toList = type.toList ++ '.' :: name.toList := by
  simp

theorem bare_dotted {type name : String} (htype : '(' ∉ type.toList) (hname : '(' ∉ name.toList) :
    '(' ∉ (type ++ "." ++ name).toList := by
  rw [toList_dotted, List.mem_append, List.mem_cons, not_or, not_or]
  exact ⟨htype, by decide, hname⟩

/-- A type that begins with no blank and a member that ends with none make a trimmed name. -/
theorem trim_dotted {type name : String} (hne : type ≠ "") (htype : Text.trim type = type)
    (hname : Text.trim name = name) : Text.trim (type ++ "." ++ name) = type ++ "." ++ name := by
  have hchars : type.toList ≠ [] := by simpa using hne
  have hending := Text.trimChars_cons (by decide : Text.isBlank '.' = false)
    (Text.trim_eq_self_iff.mp hname)
  rw [Text.trim_eq_self_iff, toList_dotted]
  exact Text.trimChars_append (Text.trim_eq_self_iff.mp htype) hchars [] hending
    (List.cons_ne_nil _ _)

/-- A member without dots of a type that does not end in one is parted from it. -/
theorem splitMember?_dotted {type name : String} (htype : type ≠ "")
    (hdot : type.toList.getLast? ≠ some '.') (hname : '.' ∉ name.toList) :
    splitMember? (type ++ "." ++ name) = some (type, name) := by
  have hcut : Text.cutAtLast? '.' (type.toList ++ '.' :: name.toList) =
      some (type.toList, name.toList) := Text.cutAtLast?_append hname
  -- a constructor's name would have put its own dot at the end of the type
  have hconstructor : Text.beforeEnding? ('.' :: constructorName.toList)
      (type.toList ++ '.' :: name.toList) = none := by
    rw [Option.eq_none_iff_forall_ne_some]
    intro before hbefore
    have hpath := Text.beforeEnding?_eq_some_iff.mp hbefore
    have hother : type.toList ++ '.' :: name.toList =
        (before ++ ['.']) ++ '.' :: "ctor".toList := by
      rw [hpath]
      simp [constructorName]
    rw [hother, Text.cutAtLast?_append (by decide)] at hcut
    have htypeEnd : before ++ ['.'] = type.toList := congrArg Prod.fst (Option.some.inj hcut)
    exact hdot (by rw [← htypeEnd]; simp)
  unfold splitMember?
  rw [toList_dotted, hconstructor, hcut]
  cases hchars : type.toList with
  | nil => exact absurd (by simpa using hchars) htype
  | cons c rest =>
      simp only []
      rw [← hchars, String.ofList_toList, String.ofList_toList]

theorem splitMember?_constructor {type : String} (htype : type ≠ "") :
    splitMember? (type ++ "." ++ constructorName) = some (type, constructorName) := by
  have hpath : Text.beforeEnding? ('.' :: constructorName.toList)
      (type.toList ++ '.' :: constructorName.toList) = some type.toList :=
    Text.beforeEnding?_eq_some_iff.mpr rfl
  have hnonempty : type.toList ≠ [] := by simpa using htype
  unfold splitMember?
  rw [toList_dotted, hpath]
  simp [hnonempty]

/-- A type and a member that a qualified name may be put together from: the dot between the two is
the last one, a constructor's own aside, and neither has blanks around it or opens a list. -/
structure Qualifies (type member : String) : Prop where
  nonempty : type ≠ ""
  trimmed : Text.trim type = type
  bare : '(' ∉ type.toList
  undotted : type.toList.getLast? ≠ some '.'
  parted : member = constructorName ∨
    Text.trim member = member ∧ '(' ∉ member.toList ∧ '.' ∉ member.toList

namespace Qualifies

variable {type member : String}

theorem member_trimmed (h : Qualifies type member) : Text.trim member = member := by
  rcases h.parted with rfl | ⟨htrimmed, -⟩
  · decide
  · exact htrimmed

theorem member_bare (h : Qualifies type member) : '(' ∉ member.toList := by
  rcases h.parted with rfl | ⟨-, hbare, -⟩
  · decide
  · exact hbare

theorem splitMember?_eq (h : Qualifies type member) :
    splitMember? (type ++ "." ++ member) = some (type, member) := by
  rcases h.parted with rfl | ⟨-, -, hdot⟩
  · exact splitMember?_constructor h.nonempty
  · exact splitMember?_dotted h.nonempty h.undotted hdot

end Qualifies

/-- A qualified name gives its type and its member back, and its parameters if it has a list of
them, whatever blanks stand around the types of the list. -/
theorem split_qualified {type member : String} (h : Qualifies type member) :
    split (type ++ "." ++ member) = (type ++ "." ++ member, none) ∧
      splitMember? (type ++ "." ++ member) = some (type, member) ∧
      ∀ pieces : List String, (∀ piece ∈ pieces, Listable (Text.trim piece)) →
        ∃ list, split (type ++ "." ++ member ++ "(" ++ ",".intercalate pieces ++ ")") =
            (type ++ "." ++ member, some list) ∧
          parameters list = pieces.map Text.trim := by
  have hbare := bare_dotted h.bare h.member_bare
  have htrimmed := trim_dotted h.nonempty h.trimmed h.member_trimmed
  refine ⟨split_eq_self hbare htrimmed, h.splitMember?_eq, ?_⟩
  intro pieces hpieces
  refine ⟨Text.trim (",".intercalate pieces), split_call hbare htrimmed _, ?_⟩
  rw [parameters_trim, parameters_intercalate hpieces]

/-- The constructor of a generic type, with a comma inside of brackets and blanks of several kinds
around the one outside of them. -/
theorem split_qualified_constructor :
    Qualifies "System.Map<TKey, TValue>" ".ctor" ∧
      (∀ piece ∈ [" Func<int, (A, B)[,]>\t", "\n  params string[] "], Listable (Text.trim piece)) ∧
      ∃ list, split ("System.Map<TKey, TValue>" ++ "." ++ ".ctor" ++ "(" ++
            ",".intercalate [" Func<int, (A, B)[,]>\t", "\n  params string[] "] ++ ")") =
          ("System.Map<TKey, TValue>" ++ "." ++ ".ctor", some list) ∧
        parameters list = ["Func<int, (A, B)[,]>", "params string[]"] := by
  have hqualifies : Qualifies "System.Map<TKey, TValue>" ".ctor" :=
    ⟨by decide, by decide, by decide, by decide, .inl rfl⟩
  have hlistable : ∀ piece ∈ [" Func<int, (A, B)[,]>\t", "\n  params string[] "],
      Listable (Text.trim piece) := by
    intro piece hpiece
    simp only [List.mem_cons, List.not_mem_nil, or_false] at hpiece
    rcases hpiece with rfl | rfl
    · exact ⟨by decide +kernel, by decide +kernel, by decide +kernel, by decide +kernel⟩
    · exact ⟨by decide +kernel, by decide +kernel, by decide +kernel, by decide +kernel⟩
  obtain ⟨list, hsplit, hparameters⟩ := (split_qualified hqualifies).2.2 _ hlistable
  refine ⟨hqualifies, hlistable, list, hsplit, ?_⟩
  rw [hparameters]
  decide +kernel

/-- No member is parted from an empty type. -/
theorem ne_empty_of_splitMember? {path type member : String}
    (h : splitMember? path = some (type, member)) : type ≠ "" := by
  unfold splitMember? at h
  split at h
  next before _ =>
    split at h
    next => cases h
    next hempty =>
      cases h
      simpa using hempty
  next =>
    split at h
    next =>
      cases h
      simp
    next => cases h

end Signature
end SymbolAtlas
