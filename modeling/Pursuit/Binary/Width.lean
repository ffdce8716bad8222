/-!
Changing the width of a binary float. Narrowing rounds to nearest with ties to even, widening is
exact. Both go through the unpacked form, so a statement about them is one about a sign, a
mantissa and an exponent. Nothing here says how the hardware does it.
-/
namespace Pursuit.Binary

/-- The nearest float of the narrow width; overflow gives an infinity. -/
def narrow (x : Float) : Float32 := .ofModel <| .pack <|
  match x.toModel.unpack with
  | .finite s m e _ => .round .binary32 s m e
  | special => special

def widen (x : Float32) : Float := .ofModel <| .pack <|
  match x.toModel.unpack with
  | .finite s m e _ => .round .binary64 s m e
  | special => special

def wideOfInt (n : Int) : Float := .ofModel (.ofInt n)

def narrowOfInt (n : Int) : Float32 := .ofModel (.ofInt n)

end Pursuit.Binary
