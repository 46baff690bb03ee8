import SignedToken.Key.Envelope
import SignedToken.Pem

/-!
This module contains what is in a key file: text armour around the octets of a key, or these octets
alone. The first octets of the file that are no blanks tell which.
-/

namespace SignedToken

namespace KeyFile

def isBlank (x : UInt8) : Bool :=
  x == 0x20 || (0x9 ≤ x && x ≤ 0xD)

def isArmoured (b : Bytes) : Bool :=
  Pem.tailMark.isPrefixOf (b.dropWhile isBlank)

def pkcs8 : Bytes := Pem.ascii "PRIVATE KEY"
def encryptedPkcs8 : Bytes := Pem.ascii "ENCRYPTED PRIVATE KEY"
def sec1 : Bytes := Pem.ascii "EC PRIVATE KEY"
def rsa : Bytes := Pem.ascii "RSA PRIVATE KEY"
def dsa : Bytes := Pem.ascii "DSA PRIVATE KEY"

def spki : Bytes := Pem.ascii "PUBLIC KEY"
def publicRsa : Bytes := Pem.ascii "RSA PUBLIC KEY"

def privateLabels : List Bytes :=
  [pkcs8, encryptedPkcs8, sec1, rsa, dsa]

def processing : Bytes := Pem.ascii "Proc-Type"

def hasName (name header : Bytes) : Bool :=
  (((header.takeWhile (· != 0x3A)).dropWhile isBlank).reverse.dropWhile isBlank).reverse == name

end KeyFile

open KeyFile

namespace AnyKey

def ofSec1? (b : Bytes) : Option AnyKey :=
  (PrivateKey.ofOctets? none b).map ecPrivate

def ofPrivateArmour? (b : Bytes) : Option AnyKey := do
  let blocks ← Pem.blocks? b
  let block ← blocks.find? fun block => privateLabels.contains block.label
  if block.headers.any (hasName processing) then none
  else if block.label = pkcs8 then ofPkcs8? block.data
  else if block.label = sec1 then ofSec1? block.data
  else if block.label = rsa then (ForeignKey.rsaPrivate? block.data).map other
  else if block.label = dsa then (ForeignKey.dsaPrivate? block.data).map other
  else none

def ofPublicArmour? (b : Bytes) : Option AnyKey := do
  let block ← Pem.first? b
  if block.label = spki then ofSpki? block.data
  else if block.label = publicRsa then (ForeignKey.rsaPublic? block.data).map other
  else none

def ofPrivateFile? (b : Bytes) : Option AnyKey :=
  if isArmoured b then ofPrivateArmour? b
  else
    ofPkcs8? b <|> ofSec1? b
      <|> (ForeignKey.rsaPrivate? b).map other <|> (ForeignKey.dsaPrivate? b).map other

def ofPublicFile? (b : Bytes) : Option AnyKey :=
  if isArmoured b then ofPublicArmour? b
  else ofSpki? b <|> (ForeignKey.rsaPublic? b).map other

end AnyKey

inductive PrivateForm where
  | pkcs8
  | sec1
  deriving DecidableEq, Repr

namespace PrivateForm

def label : PrivateForm → String
  | pkcs8 => "PRIVATE KEY"
  | sec1 => "EC PRIVATE KEY"

def write (k : PrivateKey) : PrivateForm → Bytes
  | pkcs8 => k.toPkcs8
  | sec1 => k.toOctets true

end PrivateForm

def PrivateKey.toFile (k : PrivateKey) (form : PrivateForm) (armoured : Bool) : Bytes :=
  if armoured then Pem.write form.label (form.write k) else form.write k

def PublicKey.toFile (k : PublicKey) (armoured : Bool) : Bytes :=
  if armoured then Pem.write "PUBLIC KEY" k.toSpki else k.toSpki

end SignedToken
