import IndySdk.Outcome

/-!
# Library errors

An error carries its kind, its message and the values printed into the message; an underscore in
the message marks where a value is printed.
-/

namespace IndySdk

inductive IndyErrorKind where
  | invalidState | invalidStructure | invalidParam (index : ℕ) | ioError
  | masterSecretDuplicateName | proofRejected | revocationRegistryFull | invalidUserRevocId
  | credentialRevoked | credDefAlreadyExists
  | noConsensus | invalidTransaction | ledgerItemNotFound
  | poolNotCreated | invalidPoolHandle | poolTerminated | poolTimeout
  | poolConfigAlreadyExists | poolIncompatibleProtocolVersion
  | unknownCrypto
  | invalidWalletHandle | unknownWalletStorageType | walletStorageTypeAlreadyRegistered
  | walletAlreadyExists | walletNotFound | walletAlreadyOpened | walletAccessFailed
  | walletEncodingError | walletStorageError | walletEncryptionError | walletItemNotFound
  | walletItemAlreadyExists | walletQueryError
  | didAlreadyExists
  | unknownPaymentMethodType | incompatiblePaymentMethods | paymentInsufficientFunds
  | paymentSourceDoesNotExist | paymentOperationNotSupported | paymentExtraFunds
  deriving DecidableEq, Repr

structure IndyError where
  kind : IndyErrorKind
  msg : String
  args : List String := []
  deriving DecidableEq, Repr

abbrev IndyResult (α : Type*) := Outcome IndyError α

def errMsg (kind : IndyErrorKind) (msg : String) (args : List String := []) : IndyError :=
  ⟨kind, msg, args⟩

/-- Report the failure of an inner call under this library's kind and message. -/
def toIndy {ε α : Type*} (kind : IndyErrorKind) (msg : String) : Outcome ε α → IndyResult α
  | .ok a => .ok a
  | .err _ => .err (errMsg kind msg)
  | .panic => .panic

@[simp] theorem toIndy_eq_ok {ε α : Type*} {kind : IndyErrorKind} {msg : String}
    {x : Outcome ε α} {a : α} : toIndy kind msg x = .ok a ↔ x = .ok a := by
  cases x <;> simp [toIndy]

end IndySdk
