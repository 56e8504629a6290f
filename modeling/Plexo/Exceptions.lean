import Plexo.Address

/-!
# Exceptions

The exception classes of `exceptions.py`, with the built-in ones that the
modelled code can raise or has to tell apart.  Each carries the value its text
is formatted with.
-/

namespace Plexo

/-- An exception instance. -/
inductive PlexoError where
  | neuronNotFound (name : String)
  | consensusNotReached
  | ipAddressIsNotMulticast
  | ipLeaseExists (address : IPAddress)
  | ipNotFound (address : IPAddress)
  | ipNotLeased (address : IPAddress)
  | ipsExhausted
  | preparationRejection (name : String)
  | proposalPromiseNotMade
  | proposalNotLatest
  | synapseDoesNotExist (name : String)
  | synapseExists (name : String)
  | transmitterNotFound (name : String)
  /-- The built-in `ValueError` and its subclasses. -/
  | valueError
  /-- The built-in `AttributeError`. -/
  | attributeError
  /-- A plain `KeyError`, from indexing a map. -/
  | keyError
  /-- `IndexError`, from indexing a sequence. -/
  | indexError
  /-- `concurrent.futures.TimeoutError`, raised by `Future.result`. -/
  | futureTimeout
  /-- `zmq.ZMQError`, raised by a socket operation. -/
  | zmqError
  /-- Any other class, as the code of users may raise it. -/
  | other (className : String)
  deriving DecidableEq

/-- Whether an `except ValueError` clause catches the exception.  None of the
classes of `exceptions.py` derives from `ValueError`. -/
def PlexoError.isValueError : PlexoError → Bool
  | .valueError => true
  | _ => false

end Plexo
