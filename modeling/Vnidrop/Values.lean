/-! Identifiers and errors shared by the domains. Texts that the core only stores
and compares (identifiers, names, handles, digests) are numbered. -/
namespace Vnidrop

abbrev EndpointId := Nat
abbrev TransferId := Nat
abbrev Text := Nat
abbrev Handle := Nat

/-- Milliseconds of the wall clock, `now_ms`. -/
abbrev Millis := Int

/-- The error classes of the modelled functions, with their message. -/
inductive VnidropError where
  | invalidTransition (reason : String)
  | invalidInput (reason : String)
  | permission (reason : String)
  | repository (reason : String)
  | internal (reason : String)
  | deviceUnavailable (reason : String)
  | offerTimeout (reason : String)
  | transfer (reason : String)
  | secureStorageMissing (reason : String)
  | secureStorageUnavailable (reason : String)
  | protocolIncompatible (reason : String)
  deriving DecidableEq, Repr

end Vnidrop
