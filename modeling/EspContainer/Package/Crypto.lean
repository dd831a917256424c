/-
# Reads and digests

What the package readers and the slot engine share: the bounded read callback
and the digest and signature primitives of `package_crypto.c`.

A read callback either fills its destination or fails, and a failed one may
have left anything in the destination or nothing at all. The digest primitives
can fail too, so each of them is a call; what a finished digest says is not up
to the caller, it is SHA-256 of the bytes fed in. SHA-256 and RSA-PSS
themselves are parameters.
-/

import EspContainer.Binary.Bytes
import EspContainer.Interaction.Fallible

namespace Package

open Binary Interaction

abbrev Sha256 : Type := Bytes 32

/-- The two algorithms behind `package_crypto.c`. -/
structure Crypto where
  /-- SHA-256 of a byte string. -/
  sha256 : List UInt8 → Sha256
  /-- RSA-3072-PSS verification of a message under a DER public key. -/
  pssVerify : (publicKey message signature : List UInt8) → Bool

/-- Digests that are always zero and signatures that always verify. -/
def constantCrypto : Crypto := ⟨fun _ => .zero 32, fun _ _ _ => true⟩

/-- `package_domain`, with the terminating zero that `sizeof` counts. -/
def packageDomain : List UInt8 := ascii "ESP-CONTAINER-PRODUCT-V1" ++ [0]

/-- `econtainer_package_signature_verify`. -/
def signatureVerify (crypto : Crypto) (publicKey manifest signature : List UInt8) : Bool :=
  crypto.pssVerify publicKey (packageDomain ++ manifest) signature

/-- The digest primitives, each of which may fail. -/
inductive DigestCall
  | start
  | update (bytes : List UInt8)
  | finish

/-- What a read callback did: fill the destination, or fail, leaving other bytes
in the destination or leaving it alone. -/
inductive ReadAnswer (n : Nat)
  | ok (bytes : Bytes n)
  | failed (left : Option (Bytes n))
  deriving DecidableEq

namespace ReadAnswer

variable {n : Nat}

/-- The callback returned true. -/
def succeeded : ReadAnswer n → Bool
  | ok _ => true
  | failed _ => false

/-- The bytes a successful read delivered. -/
def delivered : ReadAnswer n → List UInt8
  | ok bytes => bytes.toList
  | failed _ => []

end ReadAnswer

/-- The calls of a package reader: `read_fn(context, offset, destination, size)`
and the digest primitives. -/
inductive ReadCall
  | read (offset size : Nat)
  | digest (step : DigestCall)

/-- The interface of a package reader. -/
@[reducible]
def ReadPort : Interface where
  Call := ReadCall
  Answer
    | .read _ size => ReadAnswer size
    | .digest _ => Bool

end Package
