import SamlGate.Login.Provider
import SamlGate.Signature.Embedded

/-!
Pinning of the certificate that a signature carries.

A signature may carry any certificate. If it carries key information and the service provider has
registered keys, its first certificate must be the first of the first registered descriptor, character by
character. Nothing else is done with it.
-/

namespace SamlGate

def pinningNecessary (provider : ServiceProvider) (signature : Option Signature.Embedded) : Bool :=
  signature.any (fun carried => carried.certificates.isSome) && !provider.keyDescriptors.isEmpty

def checkPinned (provider : ServiceProvider) (signature : Signature.Embedded) : Except Error Unit :=
  match provider.keyDescriptors with
  | [] => .error (.certificateMissing .noKeyDescriptor)
  | descriptor :: _ =>
    match signature.certificates.getD [] with
    | [] => .error (.certificateMissing .noneEmbedded)
    | carried :: _ =>
      match descriptor.certificates with
      | [] => .error (.certificateMissing .emptyKeyDescriptor)
      | registered :: _ => if carried = registered then .ok () else .error .certificateMismatch

end SamlGate
