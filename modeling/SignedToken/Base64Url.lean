import SignedToken.Base64
import SignedToken.Octets

/-!
This module contains the segments of a wire: unpadded base64url. A segment is read leniently first
and then compared with the written form of what was read, so each sequence of octets has one
segment.
-/

namespace SignedToken.Base64Url

def encode (b : Bytes) : Text :=
  Base64.encode Base64.url b

inductive SegmentError where
  | invalid
  | notCanonical
  deriving DecidableEq, Repr

def toStandard (x : UInt8) : UInt8 :=
  if x = 0x2D then 0x2B else if x = 0x5F then 0x2F else x

def decodeOctets? (b : Bytes) : Option Bytes :=
  let padded := b ++ List.replicate ((4 - b.length % 4) % 4) Base64.padOctet
  Base64.decodeLenient? Base64.standard (padded.map toStandard)

def decodeLenient? (t : Text) : Option Bytes :=
  Utf8.encode? t >>= decodeOctets?

def decode (t : Text) : Except SegmentError Bytes :=
  match decodeLenient? t with
  | none => .error .invalid
  | some b => if encode b = t then .ok b else .error .notCanonical

/--
The segment of a number of a fixed width in octets. Leading zeros are kept, so all numbers of one
width have segments of one length.
-/
def encodeNat? (width : Nat) (n : Int) : Option Text :=
  if n < 0 then none else (Octets.ofNat? width n.toNat).map encode

end SignedToken.Base64Url
