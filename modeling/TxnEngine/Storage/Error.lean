/-!
# Storage errors

What a byte store or a directory of byte stores can refuse, and the wording of each refusal.
-/

namespace TxnEngine

/-- An input or output failure. -/
inductive IoFailure where
  /-- A failure described by a text alone. -/
  | described (message : String)
  /-- A failure that the operating system reports. -/
  | system (message : String)
deriving DecidableEq, Inhabited

def IoFailure.message : IoFailure → String
  | described m | system m => m

/-- Whether the operating system reports the failure. -/
def IoFailure.isSystem : IoFailure → Bool
  | described _ => false
  | system _ => true

/-- The refusals of a store or a directory (`StorageError`). -/
inductive StorageError where
  | io (failure : IoFailure)
  | readPastEnd (offset len size : Nat)
  | invalidTruncate (size requested : Nat)
  /-- A store of that name, or at that place, is there already. -/
  | alreadyExists (name : String)
  | invalidName (name : String)
deriving DecidableEq, Inhabited

def StorageError.message : StorageError → String
  | io failure => "I/O error: " ++ failure.message
  | readPastEnd offset len size =>
    "read beyond end of store: offset " ++ toString offset ++ ", len " ++ toString len ++
      ", size " ++ toString size
  | invalidTruncate size requested =>
    "cannot truncate store of size " ++ toString size ++ " to " ++ toString requested
  | alreadyExists name => "store already exists: " ++ name
  | invalidName name => "invalid sink name: " ++ name

end TxnEngine
