import ContentProtection.Session.Contract
import Mathlib.Order.Defs.Unbundled

/-!
# What an operation does by itself

From one request to the next, the state is changed by the operation alone; while it waits, by others. An operation is within bounds when it keeps to them between its requests, whatever it finds after each of them and whatever the replies are.
-/

namespace ContentProtection

variable {I : Interface} {σ α β : Type} {keeps keeps' : σ → σ → Prop} {asks asks' : I.Request → Prop}
  {returns returns' : α → Prop}

/-- Between its requests, an interaction changes the state as it may; it asks for what it may and ends with a value that it may end with. -/
def Interaction.Within (keeps : σ → σ → Prop) (asks : I.Request → Prop) (returns : α → Prop) (before : σ) :
    Interaction I σ α → Prop
  | .done after value => keeps before after ∧ returns value
  | .ask after request resume =>
    keeps before after ∧ asks request ∧ ∀ state reply, Within keeps asks returns state (resume state reply)

/-- All interactions of an operation are within bounds. -/
def Program.Within (keeps : σ → σ → Prop) (asks : I.Request → Prop) (returns : α → Prop) (program : Program I σ α) :
    Prop :=
  ∀ state, (program state).Within keeps asks returns state

namespace Interaction.Within

variable {before between : σ} {interaction : Interaction I σ α}

theorem after_change [IsPreorder σ keeps] (hkeeps : keeps before between)
    (hwithin : interaction.Within keeps asks returns between) : interaction.Within keeps asks returns before := by
  cases interaction with
  | done after value => exact ⟨IsTrans.trans _ _ _ hkeeps hwithin.1, hwithin.2⟩
  | ask after request resume => exact ⟨IsTrans.trans _ _ _ hkeeps hwithin.1, hwithin.2⟩

theorem andThen [IsPreorder σ keeps] {returns' : β → Prop} {next : α → Program I σ β}
    (hwithin : interaction.Within keeps asks returns before)
    (hnext : ∀ value, returns value → (next value).Within keeps asks returns') :
    (interaction.andThen next).Within keeps asks returns' before := by
  induction interaction generalizing before with
  | done after value => exact (hnext value hwithin.2 after).after_change hwithin.1
  | ask after request resume ih => exact ⟨hwithin.1, hwithin.2.1, fun _ _ => ih _ _ (hwithin.2.2 _ _)⟩

theorem mono (hwithin : interaction.Within keeps asks returns before)
    (hkeeps : ∀ before after, keeps before after → keeps' before after)
    (hasks : ∀ request, asks request → asks' request) (hreturns : ∀ value, returns value → returns' value) :
    interaction.Within keeps' asks' returns' before := by
  induction interaction generalizing before with
  | done after value => exact ⟨hkeeps _ _ hwithin.1, hreturns value hwithin.2⟩
  | ask after request resume ih =>
    exact ⟨hkeeps _ _ hwithin.1, hasks request hwithin.2.1, fun _ _ => ih _ _ (hwithin.2.2 _ _)⟩

theorem and (hwithin : interaction.Within keeps asks returns before)
    (hwithin' : interaction.Within keeps' asks' returns' before) :
    interaction.Within (fun before after => keeps before after ∧ keeps' before after)
      (fun request => asks request ∧ asks' request) (fun value => returns value ∧ returns' value) before := by
  induction interaction generalizing before with
  | done after value => exact ⟨⟨hwithin.1, hwithin'.1⟩, hwithin.2, hwithin'.2⟩
  | ask after request resume ih =>
    obtain ⟨hkeeps, hasks, hresume⟩ := hwithin
    obtain ⟨hkeeps', hasks', hresume'⟩ := hwithin'
    exact ⟨⟨hkeeps, hkeeps'⟩, ⟨hasks, hasks'⟩, fun _ _ => ih _ _ (hresume _ _) (hresume' _ _)⟩

end Interaction.Within

theorem Program.Within.bind [IsPreorder σ keeps] {returns' : β → Prop} {program : Program I σ α}
    {next : α → Program I σ β} (hfirst : program.Within keeps asks returns)
    (hthen : ∀ value, returns value → (next value).Within keeps asks returns') :
    Program.Within keeps asks returns' (program >>= next) :=
  fun state => (hfirst state).andThen hthen

theorem within_pure [IsPreorder σ keeps] {value : α} (hvalue : returns value) :
    Program.Within keeps asks returns (pure value) :=
  fun state => ⟨Std.Refl.refl state, hvalue⟩

theorem within_get [IsPreorder σ keeps] : Program.Within keeps asks (fun _ => True) (get : Program I σ σ) :=
  fun state => ⟨Std.Refl.refl state, trivial⟩

theorem within_modifyGet {change : σ → α × σ} (hkeeps : ∀ state, keeps state (change state).2) :
    Program.Within keeps asks (fun _ => True) (modifyGet change : Program I σ α) :=
  fun state => ⟨hkeeps state, trivial⟩

theorem within_ask [IsPreorder σ keeps] {asks : Session.Request → Prop} {request : Session.Request}
    (hrequest : asks request) : Program.Within keeps asks (fun _ => True) (Session.ask request) :=
  fun state => ⟨Std.Refl.refl state, hrequest, fun _ _ => ⟨Std.Refl.refl _, trivial⟩⟩

theorem within_ite {condition : Prop} [Decidable condition] {program program' : Program I σ α}
    (hthen : program.Within keeps asks returns) (helse : program'.Within keeps asks returns) :
    Program.Within keeps asks returns (if condition then program else program') := by
  split
  · exact hthen
  · exact helse

end ContentProtection
