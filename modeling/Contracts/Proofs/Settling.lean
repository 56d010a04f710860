import Contracts.Proofs.Permanence
import Contracts.Proofs.Requests
import Contracts.Workspace

set_option autoImplicit false

/-! # What an action of a provider does

A world that asks its provider goes where the provider goes (`World.endState_ask`). An action that
only asks the provider, or runs members, leaves the registry alone and does nothing to the provider
but moves, by matches in that registry (`World.InPlace`). A conversion may declare contracts first,
but then it does nothing but such moves in the registry that it leaves behind (`World.Settles`,
`World.settles_canConvertTo`, `World.settles_convertTo`). -/

namespace Contracts

namespace World

variable {α β : Type} {config : Config}

/-! ## Asking the provider -/

theorem endState_ask (call : Registry → Provider.Call α) (w : World) :
    endState (ask call) w = { w with provider := endState (call w.registry) w.provider } := by
  cases h : call w.registry w.provider <;> simp only [endState, ask, h]

theorem outcome_ask (call : Registry → Provider.Call α) (w : World) :
    outcome (ask call) w = outcome (call w.registry) w.provider := by
  cases h : call w.registry w.provider <;> simp only [outcome, ask, h]

theorem ok_of_ask {call : Registry → Provider.Call α} {w w' : World} {a : α}
    (h : ask call w = .ok a w') : call w.registry w.provider = .ok a w'.provider := by
  unfold ask at h
  cases hcall : call w.registry w.provider with
  | ok b s =>
      rw [hcall] at h
      obtain ⟨rfl, rfl⟩ := EStateM.Result.ok.inj h
      rfl
  | error e s =>
      rw [hcall] at h
      exact absurd h (by simp)

theorem error_of_ask {call : Registry → Provider.Call α} {w w' : World} {e : ContractError}
    (h : ask call w = .error e w') :
    call w.registry w.provider = .error e w'.provider := by
  unfold ask at h
  cases hcall : call w.registry w.provider with
  | ok b s =>
      rw [hcall] at h
      exact absurd h (by simp)
  | error e' s =>
      rw [hcall] at h
      obtain ⟨rfl, rfl⟩ := EStateM.Result.error.inj h
      rfl

theorem ask_bind (call : Registry → Provider.Call α)
    (f : Registry → α → Provider.Call β) :
    (ask fun r => call r >>= f r) = ask call >>= fun a => ask fun r => f r a := by
  funext w
  cases h : call w.registry w.provider with
  | ok a s =>
      have hask : ask call w = .ok a { w with provider := s } := by rw [ask, h]
      rw [bind_of_ok hask, ask, ask, bind_of_ok h]
  | error e s =>
      have hask : ask call w = .error e { w with provider := s } := by rw [ask, h]
      rw [bind_of_error hask, ask, bind_of_error h]

/-! ## Moves in a registry that stays -/

/-- What matching goes by and what it changes. -/
def matching (w : World) : Registry × Provider.State := (w.registry, w.provider)

/-- A move by a match in a registry, which stays as it is. -/
def MovesIn (config : Config) (before after : Registry × Provider.State) : Prop :=
  after.1 = before.1 ∧ Provider.Move (Provider.Matches before.1 config) before.2 after.2

/-- An action leaves the registry alone, and does nothing to the provider but moves by matches
in it. -/
abbrev InPlace (config : Config) (action : Action α) : Prop :=
  Along matching (MovesIn config) action

theorem InPlace.registry_and_moves {action : Action α} (h : InPlace config action) (w : World) :
    (endState action w).registry = w.registry ∧
      Provider.Moves (Provider.Matches w.registry config) w.provider
        (endState action w).provider := by
  have hfold : ∀ after, Relation.ReflTransGen (MovesIn config) w.matching after →
      after.1 = w.registry ∧
        Provider.Moves (Provider.Matches w.registry config) w.provider after.2 := by
    intro after hsteps
    induction hsteps with
    | refl => exact ⟨rfl, .refl⟩
    | tail _ hmove ih => exact ⟨hmove.1.trans ih.1, ih.2.tail (ih.1 ▸ hmove.2)⟩
  exact hfold _ (h w)

theorem inPlace_ask {call : Registry → Provider.Call α}
    (h : ∀ r, Along id (Provider.Move (Provider.Matches r config)) (call r)) :
    InPlace config (ask call) := by
  intro w
  have hlift : ∀ s s', Provider.Move (Provider.Matches w.registry config) s s' →
      MovesIn config (w.registry, s) (w.registry, s') := fun _ _ hmove => ⟨rfl, hmove⟩
  rw [endState_ask]
  exact Relation.ReflTransGen.lift _ hlift _ _ (h w.registry w.provider)

theorem inPlace_eval (run : Registry → Eval α) : InPlace config (eval run) := by
  intro w
  cases h : run w.registry w.heap <;> simp only [endState, eval, h] <;> exact .refl

theorem inPlace_get : InPlace config (get : Action World) := fun _ => .refl

theorem inPlace_satisfies (v : Value) (contract : TypeIdx) :
    InPlace config (ask fun r => Provider.satisfies r config v contract) :=
  inPlace_ask fun r => Provider.along_satisfies r config v contract

theorem inPlace_convertThrough (v : Value) (contract : TypeIdx) (operation : String) :
    InPlace config (convertThrough config v contract operation) :=
  (inPlace_ask fun r => Provider.along_convert r config v contract).bind fun _ => inPlace_eval _

/-! ## Conversions -/

/-- What an action of a provider does: it may declare contracts, and then it only makes moves, by
matches in the registry that it leaves behind. -/
structure Settles (config : Config) (w w' : World) : Prop where
  retains : w.registry.Retains w'.registry
  moves : Provider.Moves (Provider.Matches w'.registry config) w.provider w'.provider

theorem InPlace.settles {action : Action α} (h : InPlace config action) (w : World) :
    Settles config w (endState action w) := by
  obtain ⟨hregistry, hmoves⟩ := h.registry_and_moves w
  exact ⟨by rw [hregistry]; exact .refl _, by rw [hregistry]; exact hmoves⟩

/-- The conversion contracts are there, or they are declared. -/
theorem conversionContracts_cases (target : TypeRef) (w : World) :
    (∃ contracts, conversionContracts target w = .ok contracts w) ∨
      ∃ change, Registry.Keeping change ∧ conversionContracts target w = declare change w := by
  have hget : (get : Action World) w = .ok w w := rfl
  have hkeeping := fun e : TypeIdx => (StandardContract.keeping_declare
    (.implicitlyConvertibleTo target)).bind fun i => Along.pure (e, i)
  have hdeclare := (StandardContract.keeping_declare (.castableTo target)).bind hkeeping
  rw [conversionContracts, bind_of_ok hget]
  cases (StandardContract.castableTo target).find? w.registry with
  | none => exact Or.inr ⟨_, hdeclare, rfl⟩
  | some e =>
      cases (StandardContract.implicitlyConvertibleTo target).find? w.registry with
      | none => exact Or.inr ⟨_, hdeclare, rfl⟩
      | some i => exact Or.inl ⟨(e, i), rfl⟩

/-- The provider is not asked for that. -/
theorem endState_conversionContracts (target : TypeRef) (w : World) :
    w.registry.Retains (endState (conversionContracts target) w).registry ∧
      (endState (conversionContracts target) w).provider = w.provider := by
  rcases conversionContracts_cases target w with ⟨contracts, hok⟩ | ⟨change, keeping, heq⟩
  · simp only [endState, hok]
    exact ⟨.refl _, trivial⟩
  · have hretains := keeping.retains w.registry
    rw [endState, heq]
    cases hchange : change w.registry <;> simp only [endState, declare, hchange] at hretains ⊢ <;>
      exact ⟨hretains, trivial⟩

/-- The action asks for the contracts of conversion to a type first, and what it does then it does
in place. -/
def ConvertsInPlace (config : Config) (target : TypeRef) (action : Action α) : Prop :=
  ∃ rest : TypeIdx × TypeIdx → Action α, action = conversionContracts target >>= rest ∧
    ∀ contracts, InPlace config (rest contracts)

theorem convertsInPlace_canConvertTo (v : Value) (target : TypeRef) :
    ConvertsInPlace config target (canConvertTo config v target) := by
  refine ⟨_, rfl, fun contracts => ?_⟩
  refine (inPlace_satisfies v contracts.1).bind fun explicit => ?_
  split
  · exact .pure true
  · exact inPlace_satisfies v contracts.2

theorem convertsInPlace_convertTo (v : Value) (target : TypeRef) :
    ConvertsInPlace config target (convertTo config v target) := by
  refine ⟨_, rfl, fun contracts => ?_⟩
  refine (inPlace_satisfies v contracts.1).bind fun explicit => ?_
  split
  · exact inPlace_convertThrough v contracts.1 "cast"
  · refine (inPlace_satisfies v contracts.2).bind fun implicit => ?_
    split
    · exact inPlace_convertThrough v contracts.2 "convert"
    · split
      · exact .throw _
      · exact inPlace_get.bind fun _ => .throw _

variable {target : TypeRef} {action : Action α}

/-- The registry changes by what is declared for the conversion, and by nothing else. -/
theorem ConvertsInPlace.registry (h : ConvertsInPlace config target action) (w : World) :
    (endState action w).registry = (endState (conversionContracts target) w).registry := by
  obtain ⟨rest, rfl, hrest⟩ := h
  cases hcontracts : conversionContracts target w with
  | error e w₁ => simp only [endState, hcontracts, bind_of_error hcontracts]
  | ok contracts w₁ =>
      have hregistry := ((hrest contracts).registry_and_moves w₁).1
      simpa only [endState, hcontracts, bind_of_ok hcontracts] using hregistry

/-- What is done once the conversion contracts are there is done in the registry that has them. -/
theorem ConvertsInPlace.settles (h : ConvertsInPlace config target action) (w : World) :
    Settles config w (endState action w) := by
  obtain ⟨rest, rfl, hrest⟩ := h
  obtain ⟨hretains, hprovider⟩ := endState_conversionContracts target w
  cases hcontracts : conversionContracts target w with
  | error e w₁ =>
      simp only [endState, hcontracts, bind_of_error hcontracts] at hretains hprovider ⊢
      exact ⟨hretains, by rw [hprovider]⟩
  | ok contracts w₁ =>
      have hsettles := (hrest contracts).settles w₁
      simp only [endState, hcontracts, bind_of_ok hcontracts] at hretains hprovider hsettles ⊢
      exact ⟨hretains.trans hsettles.retains, hprovider ▸ hsettles.moves⟩

theorem settles_canConvertTo (v : Value) (target : TypeRef) (w : World) :
    Settles config w (endState (canConvertTo config v target) w) :=
  (convertsInPlace_canConvertTo v target).settles w

theorem settles_convertTo (v : Value) (target : TypeRef) (w : World) :
    Settles config w (endState (convertTo config v target) w) :=
  (convertsInPlace_convertTo v target).settles w

end World

end Contracts
