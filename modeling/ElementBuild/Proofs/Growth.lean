/-
# Sessions only grow

A build forgets nothing: what was claimed, written, recorded or noted stays
(`Session.Extends`).
-/
import ElementBuild.Proofs.Changes

namespace ElementBuild

/-- What a session has noted is still noted in a later one. -/
structure Session.Extends (s s' : Session) : Prop where
  copies : ∀ p ∈ s.copies.pairs, p ∈ s'.copies.pairs
  bundles : s.bundles <+: s'.bundles
  deliveries : s.deliveries <+: s'.deliveries
  events : s.events <+: s'.events

namespace Session.Extends

theorem refl (s : Session) : s.Extends s :=
  ⟨fun _ h => h, List.prefix_rfl, List.prefix_rfl, List.prefix_rfl⟩

instance : IsPreorder Session Extends where
  refl := refl
  trans _ _ _ h₁ h₂ := ⟨fun p hp => h₂.copies p (h₁.copies p hp), h₁.bundles.trans h₂.bundles,
    h₁.deliveries.trans h₂.deliveries, h₁.events.trans h₂.events⟩

theorem event_mem {s s' : Session} (h : s.Extends s') {e : Event} (he : e ∈ s.events) :
    e ∈ s'.events := h.events.subset he

theorem pointed (s : Session) (p : Pointed) :
    s.Extends { s with events := s.events ++ [.pointed p] } :=
  { refl s with events := List.prefix_append _ _ }

theorem building : Session.Building Extends where
  log s _ := { refl s with }
  mapped s _ := { refl s with }
  folders s _ := { refl s with }
  deliveries s d t _ := { refl s with deliveries := List.prefix_append _ _ }
  copies s source destination := { refl s with
    copies := by
      intro p hp
      unfold CopyCache.claim
      split
      · exact hp
      · exact List.mem_cons_of_mem _ hp }
  followed s e := { refl s with events := List.prefix_append _ _ }
  begun s _ _ := { refl s with events := List.prefix_append _ _ }
  bundles s b := { refl s with bundles := List.prefix_append _ _ }
  entered s _ _ := { refl s with events := List.prefix_append _ _ }
  linked s e := { refl s with events := List.prefix_append _ _ }

end Session.Extends
end ElementBuild
