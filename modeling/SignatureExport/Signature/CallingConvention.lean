import SignatureExport.Text.Basic

/-!
# Calling conventions

A calling convention says how a function takes its arguments.  A signature names
it by a *token*.  There are five, and no token occurs inside another.
-/

namespace SignatureExport

/-- How a function is called. -/
inductive CallingConvention where
  | thiscall
  | cdecl
  | stdcall
  | fastcall
  | vectorcall
deriving DecidableEq, Repr

namespace CallingConvention

/-- The calling conventions, in their listed order. -/
def all : List CallingConvention := [thiscall, cdecl, stdcall, fastcall, vectorcall]

theorem mem_all (convention : CallingConvention) : convention ∈ all := by
  cases convention <;> decide

/-- The token that names a calling convention. -/
def token : CallingConvention → Text
  | thiscall => "__thiscall".toList
  | cdecl => "__cdecl".toList
  | stdcall => "__stdcall".toList
  | fastcall => "__fastcall".toList
  | vectorcall => "__vectorcall".toList

/-- The calling convention that a token names. -/
def ofToken? (text : Text) : Option CallingConvention := all.find? (·.token = text)

theorem ofToken?_token (convention : CallingConvention) :
    ofToken? convention.token = some convention := by
  cases convention <;> decide

end CallingConvention

end SignatureExport
