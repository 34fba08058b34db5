import PipingAssembly.Decimal.Remainder

/-!
# Colors of parts

The hue of a part comes from its id, so that a part has the same color in every scene.
-/

namespace PipingAssembly

/-- The UTF-16 units of a character. -/
def utf16Units (c : Char) : List Nat :=
  let n := c.toNat
  if n < 0x10000 then [n] else [0xD800 + (n - 0x10000) / 0x400, 0xDC00 + (n - 0x10000) % 0x400]

/-- The hue of a part in degrees. -/
def partHue (partId : String) : Float :=
  let sum := total (partId.toList.flatMap utf16Units)
  Decimal.remainder (Float.ofNat sum * 137.5) 360

/-- The two hexadecimal digits of a byte. -/
def hexByte (b : UInt8) : String :=
  String.ofList [Nat.digitChar (b.toNat / 16), Nat.digitChar (b.toNat % 16)]

/-- The byte of a share of a color channel. -/
private def channel (share : Float) : UInt8 :=
  let x := (share * 255).round
  (if x < 0 then 0 else if 255 < x then 255 else x).toUInt8

/-- The color with a hue in degrees, a saturation and a lightness in percent, as `#rrggbb`. -/
def hslColor (hue saturation lightness : Float) : String :=
  let s := saturation / 100
  let l := lightness / 100
  let c := (1 - (2 * l - 1).abs) * s
  let x := c * (1 - (Decimal.remainder (hue / 60) 2 - 1).abs)
  let m := l - c / 2
  let (r, g, b) :=
    if hue < 60 then (c, x, 0)
    else if hue < 120 then (x, c, 0)
    else if hue < 180 then (0, c, x)
    else if hue < 240 then (0, x, c)
    else if hue < 300 then (x, 0, c)
    else (c, 0, x)
  "#" ++ hexByte (channel (r + m)) ++ hexByte (channel (g + m)) ++ hexByte (channel (b + m))

/-- The color of a part. -/
def partColor (partId : String) : String := hslColor (partHue partId) 70 60

end PipingAssembly
