import SymbolAtlas.Proofs.Index.Following
import SymbolAtlas.Proofs.Respelling.Draft
import Mathlib.Tactic

/-!
# Steps on drafts that resemble each other

Steps that make the same changes, but for how symbols are shown, follow each other on drafts that
resemble each other.
-/

namespace SymbolAtlas
namespace Building

variable {α β : Type}

/-- Whenever a step ends without a fault, another one does so on every draft that resembles its
own, with a related result. -/
abbrev Follows (R : α → β → Prop) (step : Building α) (other : Building β) : Prop :=
  FollowsOn Draft.Resembles R step other

theorem addMember_follows (type : String) {s s' : Symbol} (hs : s.Resembles s')
    (span span' : Option Span) :
    Follows Eq (addMember type s span) (addMember type s' span') := by
  unfold addMember
  refine follows_get.bind ?_
  intro d d' hd
  rw [hs.id, hd.symbols.contains]
  refine (follows_refuseIf _ _ _).bind_same ?_
  intro _
  exact follows_set (hd.putMember type hs span span')

end Building
end SymbolAtlas
