import SignatureExport.Signature.CallingConvention
import SignatureExport.Text.Blank
import SignatureExport.Text.Utf8

/-!
# Anchors

A token of a calling convention *stands alone* when it starts the text or has a
blank before it, and has a blank behind it.  So the token of a function pointer
as in `(__cdecl*)` does not.  Each token that stands alone is an *anchor*, a place
where a signature can be cut into the return type and the rest.
-/

namespace SignatureExport

/-- A place where a token of a calling convention stands alone in a text. -/
structure Anchor where
  /-- The calling convention of the token. -/
  convention : CallingConvention
  /-- The characters before the token, last one first.  Anchors of one text share
  them. -/
  passed : Text
  /-- The text behind the token. -/
  after : Text
deriving DecidableEq, Repr

namespace Anchor

/-- The text before the token. -/
def before (anchor : Anchor) : Text := anchor.passed.reverse

/-- The text that the anchor is a place of. -/
def text (anchor : Anchor) : Text := anchor.before ++ anchor.convention.token ++ anchor.after

/-- The number of bytes before the token. -/
def start (anchor : Anchor) : Nat := Utf8.width anchor.passed

/-- The number of bytes up to the end of the token. -/
def stop (anchor : Anchor) : Nat := anchor.start + Utf8.width anchor.convention.token

/-- Whether a text is not empty and starts with a blank. -/
def startsBlank : Text → Bool
  | [] => false
  | c :: _ => isBlank c

/-- The anchor at the start of `text`, behind the characters `passed`. -/
def here? (passed text : Text) : Option Anchor :=
  if passed = [] ∨ startsBlank passed then
    CallingConvention.all.findSome? fun convention =>
      (Text.after? convention.token text).bind fun after =>
        if startsBlank after then some ⟨convention, passed, after⟩ else none
  else none

/-- The anchors of `text`, behind the characters `passed`. -/
def inRest (passed : Text) : Text → List Anchor
  | [] => []
  | c :: rest => (here? passed (c :: rest)).toList ++ inRest (c :: passed) rest

/-- The anchors of a text, from left to right. -/
def all (text : Text) : List Anchor := inRest [] text

example : all "int __cdecl f()".toList = [⟨.cdecl, " tni".toList, " f()".toList⟩] := by decide
example : (all "é __stdcall x".toList).map (fun anchor => (anchor.start, anchor.stop))
    = [(3, 12)] := by decide
example : all "void (__cdecl*)(int) x__cdecl __cdecly __cdecl".toList = [] := by decide

end Anchor

end SignatureExport
