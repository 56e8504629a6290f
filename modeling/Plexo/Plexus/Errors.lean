import Plexo.Plexus.Bridging

/-!
# Exceptions on the way of a message

`except ValueError` is there for the case that there is nothing to gather.  But
it also catches what a decoder or a reactant raises, so that the call returns.
All other exceptions reach the caller.
-/

namespace Plexo

open CallTable Transition

variable {δ η : Type}

namespace Call

def isReaction : Call δ η → Bool
  | .react _ _ _ _ => true
  | .reactRaw _ _ _ _ => true
  | _ => false

end Call

def Reactant.user? : Reactant → Option ReactantId
  | .user reactant => some reactant
  | .attached reactant => some reactant
  | _ => none

namespace Plexus

/-- The ganglion where a message comes from can deliver it there. -/
def Starts (plexus : Plexus) (name : String) : Origin δ η → Prop
  | .transmit ganglion _ =>
      (plexus.ganglion ganglion).hasTransmitter name = true
  | .receive _ _ => True

/-- The ganglion where a message comes from reacts to it. -/
def Passes (plexus : Plexus) (environment : Environment δ η) (first : Neuron)
    (source : Origin δ η) (data : δ) : Prop :=
  (plexus.ganglion source.ganglion).capable first = true ∧
    plexus.Callable environment first.name data source.ganglion

/-- The ganglia whose reactants a message is handed to. -/
def Reaches (plexus : Plexus) (environment : Environment δ η) (first : Neuron)
    (source : Origin δ η) (data : δ) (id : GanglionId) : Prop :=
  plexus.Starts first.name source ∧ id ∈ plexus.ganglia ∧
    (id = source.ganglion ∨ plexus.Passes environment first source data ∧
      (plexus.ganglion id).hasTransmitter first.name = true)

/-- Neither the decoder nor a reactant of a user that a message is handed to,
when it is called or when its coroutine runs, raises a `ValueError`. -/
structure Harmless (plexus : Plexus) (environment : Environment δ η)
    (neuron first : Neuron) (source : Origin δ η) : Prop where
  decoder : ∀ ganglion data, source = .receive ganglion data → ∀ error,
    plexus.decodeAt environment ganglion neuron data = .error error →
      error.isValueError = false
  calls : ∀ message,
    plexus.message? environment neuron source = some message →
    ∀ id, plexus.Reaches environment first source message.data id → ∀ error,
      environment.callReactants message.data
        ((plexus.ganglion id).reactantsOf first.name) = .error error →
          error.isValueError = false
  reactants : ∀ message,
    plexus.message? environment neuron source = some message →
    ∀ id, plexus.Reaches environment first source message.data id →
      plexus.Callable environment first.name message.data id →
      ∀ reactant ∈ (plexus.ganglion id).reactantsOf first.name, ∀ user,
        reactant.user? = some user → ∀ error,
          environment.react user message.data = .error error →
            error.isValueError = false

section Undecoded

variable {plexus : Plexus} {neuron : Neuron} {environment : Environment δ η}
  {ganglion : GanglionId} {data : η} {root : Call δ η} {error : PlexoError}

end Undecoded

section Decoded

variable {plexus : Plexus} {neuron first : Neuron} {source : Origin δ η}
  {environment : Environment δ η} {message : Content δ η} {root : Call δ η}

/-- The calls that a message leads to stay within inproc ganglia. -/
def Within (plexus : Plexus) (environment : Environment δ η) (first : Neuron)
    (source : Origin δ η) (data : δ) : Call δ η → Prop
  | .transmit ganglion _ _ _ =>
      (plexus.ganglion ganglion).cls = .inproc ∧
        (ganglion = source.ganglion ∨ plexus.Starts first.name source ∧
          plexus.Passes environment first source data)
  | .transmitter ganglion _ _ _ =>
      (plexus.ganglion ganglion).cls = .inproc ∧
        plexus.Reaches environment first source data ganglion
  | .transmitEncoded _ _ _ _ => False
  | .externalTransmitter _ _ _ _ => False
  | .transduce _ _ _ _ => plexus.Starts first.name source
  | .react reactant _ _ _ => ∃ id,
      plexus.Reaches environment first source data id ∧
        plexus.Callable environment first.name data id ∧
        reactant ∈ (plexus.ganglion id).reactantsOf first.name
  | .reactRaw _ _ _ _ => True

theorem Harmless.invoked
    (harmless : plexus.Harmless environment neuron first source)
    (sent : plexus.message? environment neuron source = some message)
    {reactant : Reactant} {user : ReactantId} {data : δ} {error : PlexoError}
    (isUser : reactant.user? = some user) (same : data = message.data)
    (reached : ∃ id, plexus.Reaches environment first source message.data id ∧
      plexus.Callable environment first.name message.data id ∧
      reactant ∈ (plexus.ganglion id).reactantsOf first.name)
    (raised : outcomeOf (environment.react user data) =
      (.raise error : Outcome (Call δ η) PlexoError)) :
    error.isValueError = false := by
  subst same
  obtain ⟨id, reaches, callable, attached⟩ := reached
  exact harmless.reactants message sent id reaches callable reactant attached
    user isUser _ (raises_of_outcomeOf raised)

end Decoded

end Plexus

end Plexo
