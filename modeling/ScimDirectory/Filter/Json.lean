import ScimDirectory.Declaration.Json
import ScimDirectory.Filter.Compile

/-!
# Operators and configurations as JSON
-/

namespace ScimDirectory

open Decoder Record

/-- An operator as JSON. -/
def Operator.toJson (op : Operator) : Json :=
  .string op.token

/-- The operator of exactly that token, letter case included. -/
def Operator.ofExactToken? (token : String) : Option Operator :=
  listed.find? fun op => op.token = token

/-- Decode an operator. -/
def Operator.decode (room : Nat) : Decoder Operator :=
  named room (listed.map token) ofExactToken?

/-- A way of escaping as JSON. -/
def Escaping.toJson (escaping : Escaping) : Json :=
  .string escaping.name

/-- Decode a way of escaping. -/
def Escaping.decode (room : Nat) : Decoder Escaping :=
  named room (all.map name) ofName?

/-- A compiler configuration as JSON. -/
def CompilerConfig.toJson (config : CompilerConfig) : Json :=
  .object [("literalEscaping", config.escaping.toJson)]

/-- Decode a compiler configuration. -/
def CompilerConfig.decode (room : Nat) : Decoder CompilerConfig :=
  decoder "CompilerConfig"
    (CompilerConfig.mk <$> defaulted "literalEscaping" .preserve (Escaping.decode (room - 1)))
    room

end ScimDirectory
