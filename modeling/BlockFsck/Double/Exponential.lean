import BlockFsck.Double.Logarithm

/-!
# The exponential function

The exponent is split into a multiple of the 128th part of the logarithm of two, whose exponential
comes from a table, and a small rest, whose exponential a polynomial gives. Each step is rounded,
and it is the steps that fix the last bits.
-/

namespace BlockFsck.Double

namespace Exponential

/-- The 128th roots of the powers of two below two, each with what its rounding leaves over, as
bits. -/
def roots : List (Nat × Nat) :=
  [(0x3FF0000000000000, 0x0000000000000000), (0x3FF0163DA9FB3335, 0x3C9B3B4F1A88BF6E),
    (0x3FF02C9A3E778061, 0xBC7160139CD8DC5D), (0x3FF04315E86E7F85, 0xBC905E7A108766D1),
    (0x3FF059B0D3158574, 0x3C8CD2523567F613), (0x3FF0706B29DDF6DE, 0xBC8BCE8023F98EFA),
    (0x3FF0874518759BC8, 0x3C60F74E61E6C861), (0x3FF09E3ECAC6F383, 0x3C90A3E45B33D399),
    (0x3FF0B5586CF9890F, 0x3C979AA65D837B6D), (0x3FF0CC922B7247F7, 0x3C8EB51A92FDEFFC),
    (0x3FF0E3EC32D3D1A2, 0x3C3EBE3D702F9CD1), (0x3FF0FB66AFFED31B, 0xBC6A033489906E0B),
    (0x3FF11301D0125B51, 0xBC9556522A2FBD0E), (0x3FF12ABDC06C31CC, 0xBC5080EF8C4EEA55),
    (0x3FF1429AAEA92DE0, 0xBC91C923B9D5F416), (0x3FF15A98C8A58E51, 0x3C80D3E3E95C55AF),
    (0x3FF172B83C7D517B, 0xBC801B15EAA59348), (0x3FF18AF9388C8DEA, 0xBC8F1FF055DE323D),
    (0x3FF1A35BEB6FCB75, 0x3C8B898C3F1353BF), (0x3FF1BBE084045CD4, 0xBC96D99C7611EB26),
    (0x3FF1D4873168B9AA, 0x3C9AECF73E3A2F60), (0x3FF1ED5022FCD91D, 0xBC8FE782CB86389D),
    (0x3FF2063B88628CD6, 0x3C8A6F4144A6C38D), (0x3FF21F49917DDC96, 0x3C807A05B0E4047D),
    (0x3FF2387A6E756238, 0x3C968EFDE3A8A894), (0x3FF251CE4FB2A63F, 0x3C875E18F274487D),
    (0x3FF26B4565E27CDD, 0x3C80472B981FE7F2), (0x3FF284DFE1F56381, 0xBC96B87B3F71085E),
    (0x3FF29E9DF51FDEE1, 0x3C82F7E16D09AB31), (0x3FF2B87FD0DAD990, 0xBC3D219B1A6FBFFA),
    (0x3FF2D285A6E4030B, 0x3C8B3782720C0AB4), (0x3FF2ECAFA93E2F56, 0x3C6E149289CECB8F),
    (0x3FF306FE0A31B715, 0x3C834D754DB0ABB6), (0x3FF32170FC4CD831, 0x3C864201E2AC744C),
    (0x3FF33C08B26416FF, 0x3C8FDD395DD3F84A), (0x3FF356C55F929FF1, 0xBC86A3803B8E5B04),
    (0x3FF371A7373AA9CB, 0xBC924AEDCC4B5068), (0x3FF38CAE6D05D866, 0xBC9907F81B512D8E),
    (0x3FF3A7DB34E59FF7, 0xBC71D1E83E9436D2), (0x3FF3C32DC313A8E5, 0xBC991919B3CE1B15),
    (0x3FF3DEA64C123422, 0x3C859F48A72A4C6D), (0x3FF3FA4504AC801C, 0xBC9312607A28698A),
    (0x3FF4160A21F72E2A, 0xBC58A78F4817895B), (0x3FF431F5D950A897, 0xBC7C2C9B67499A1B),
    (0x3FF44E086061892D, 0x3C4363ED60C2AC11), (0x3FF46A41ED1D0057, 0x3C9666093B0664EF),
    (0x3FF486A2B5C13CD0, 0x3C6ECCE1DAA10379), (0x3FF4A32AF0D7D3DE, 0x3C93FF8E3F0F1230),
    (0x3FF4BFDAD5362A27, 0x3C7690CEBB7AAFB0), (0x3FF4DCB299FDDD0D, 0x3C931DBDEB54E077),
    (0x3FF4F9B2769D2CA7, 0xBC8F94340071A38E), (0x3FF516DAA2CF6642, 0xBC87DECCDC93A349),
    (0x3FF5342B569D4F82, 0xBC78DEC6BD0F385F), (0x3FF551A4CA5D920F, 0xBC861246EC7B5CF6),
    (0x3FF56F4736B527DA, 0x3C93350518FDD78E), (0x3FF58D12D497C7FD, 0x3C7B98B72F8A9B05),
    (0x3FF5AB07DD485429, 0x3C9063E1E21C5409), (0x3FF5C9268A5946B7, 0x3C34C7855019C6EA),
    (0x3FF5E76F15AD2148, 0x3C9432E62B64C035), (0x3FF605E1B976DC09, 0xBC8CE44A6199769F),
    (0x3FF6247EB03A5585, 0xBC8C33C53BEF4DA8), (0x3FF6434634CCC320, 0xBC845378892BE9AE),
    (0x3FF6623882552225, 0xBC93CEDD78565858), (0x3FF68155D44CA973, 0x3C5710AA807E1964),
    (0x3FF6A09E667F3BCD, 0xBC93B3EFBF5E2228), (0x3FF6C012750BDABF, 0xBC6A12AD8734B982),
    (0x3FF6DFB23C651A2F, 0xBC6367EFB86DA9EE), (0x3FF6FF7DF9519484, 0xBC80DC3D54E08851),
    (0x3FF71F75E8EC5F74, 0xBC781F647E5A3ECF), (0x3FF73F9A48A58174, 0xBC86EE4AC08B7DB0),
    (0x3FF75FEB564267C9, 0xBC8619321E55E68A), (0x3FF780694FDE5D3F, 0x3C909CCB5E09D4D3),
    (0x3FF7A11473EB0187, 0xBC7B32DCB94DA51D), (0x3FF7C1ED0130C132, 0x3C94ECFD5467C06B),
    (0x3FF7E2F336CF4E62, 0x3C65EBE1ABD66C55), (0x3FF80427543E1A12, 0xBC88A1C52FB3CF42),
    (0x3FF82589994CCE13, 0xBC9369B6F13B3734), (0x3FF8471A4623C7AD, 0xBC805E843A19FF1E),
    (0x3FF868D99B4492ED, 0xBC94D450D872576E), (0x3FF88AC7D98A6699, 0x3C90AD675B0E8A00),
    (0x3FF8ACE5422AA0DB, 0x3C8DB72FC1F0EAB4), (0x3FF8CF3216B5448C, 0xBC65B6609CC5E7FF),
    (0x3FF8F1AE99157736, 0x3C7BF68359F35F44), (0x3FF9145B0B91FFC6, 0xBC93091FA71E3D83),
    (0x3FF93737B0CDC5E5, 0xBC5DA9B88B6C1E29), (0x3FF95A44CBC8520F, 0xBC6C23F97C90B959),
    (0x3FF97D829FDE4E50, 0xBC92434322F4F9AA), (0x3FF9A0F170CA07BA, 0xBC85CA6CD7668E4B),
    (0x3FF9C49182A3F090, 0x3C71AFFC2B91CE27), (0x3FF9E86319E32323, 0x3C6DD235E10A73BB),
    (0x3FFA0C667B5DE565, 0xBC87C50422622263), (0x3FFA309BEC4A2D33, 0x3C8B1C86E3E231D5),
    (0x3FFA5503B23E255D, 0xBC91BBD1D3BCBB15), (0x3FFA799E1330B358, 0x3C90CC319CEE31D2),
    (0x3FFA9E6B5579FDBF, 0x3C8469846E735AB3), (0x3FFAC36BBFD3F37A, 0xBC82DFCD978E9DB4),
    (0x3FFAE89F995AD3AD, 0x3C8C1A7792CB3387), (0x3FFB0E07298DB666, 0xBC907B8F4AD1D9FA),
    (0x3FFB33A2B84F15FB, 0xBC55C3D956DCAEBA), (0x3FFB59728DE5593A, 0xBC90A40E3DA6F640),
    (0x3FFB7F76F2FB5E47, 0xBC68D6F438AD9334), (0x3FFBA5B030A1064A, 0xBC91EEE26B588A35),
    (0x3FFBCC1E904BC1D2, 0x3C74FFD70A5FDDCD), (0x3FFBF2C25BD71E09, 0xBC91BDFBFA9298AC),
    (0x3FFC199BDD85529C, 0x3C736EAE30AF0CB3), (0x3FFC40AB5FFFD07A, 0x3C8EE3325C9FFD94),
    (0x3FFC67F12E57D14B, 0x3C84E08FD10959AC), (0x3FFC8F6D9406E7B5, 0x3C63CDAF384E1A67),
    (0x3FFCB720DCEF9069, 0x3C676B2C6C921968), (0x3FFCDF0B555DC3FA, 0xBC808A1883CCB5D2),
    (0x3FFD072D4A07897C, 0xBC8FAD5D3FFFFA6F), (0x3FFD2F87080D89F2, 0xBC900DAE3875A949),
    (0x3FFD5818DCFBA487, 0x3C74A385A63D07A7), (0x3FFD80E316C98398, 0xBC82919E2040220F),
    (0x3FFDA9E603DB3285, 0x3C8E5A50D5C192AC), (0x3FFDD321F301B460, 0x3C843A59AC016B4B),
    (0x3FFDFC97337B9B5F, 0xBC82D52107B43E1F), (0x3FFE264614F5A129, 0xBC892AB93B470DC9),
    (0x3FFE502EE78B3FF6, 0x3C74B604603A88D3), (0x3FFE7A51FBC74C83, 0x3C83C5EC519D7271),
    (0x3FFEA4AFA2A490DA, 0xBC8FF7128FD391F0), (0x3FFECF482D8E67F1, 0xBC8DAE98E223747D),
    (0x3FFEFA1BEE615A27, 0x3C8EC3BC41AA2008), (0x3FFF252B376BBA97, 0x3C842B94C3A9EB32),
    (0x3FFF50765B6E4540, 0x3C8A64A931D185EE), (0x3FFF7BFDAD9CBE14, 0xBC8E37BAE43BE3ED),
    (0x3FFFA7C1819E90D8, 0x3C77893B4D91CD9D), (0x3FFFD3C22B8F71F1, 0x3C5305C14160CC89)]

/-- How many 128th parts of the logarithm of two are one. -/
def perUnit : Rat := ofBits 0x40671547652B82FE

/-- The 128th part of the logarithm of two, negated, and what its rounding leaves over. -/
def negatedPart : Rat × Rat := (ofBits 0xBF762E42FEFA0000, ofBits 0xBD0CF79ABC9E3B3A)

def coefficients : Rat × Rat × Rat × Rat :=
  (ofBits 0x3FDFFFFFFFFFFDBD, ofBits 0x3FC555555555543C,
    ofBits 0x3FA55555CF172B91, ofBits 0x3F81111167A4D017)

/-- The integer nearest to a number, a tie to the even one. -/
def nearestInt (x : Rat) : Int :=
  let n : Int := roundDiv x.num.natAbs x.den
  if x < 0 then -n else n

/-- The power of two that is nearest to an exponential, by its 128th root and its exponent, and the
factor above one by which the exponential differs. -/
def split (x rest : Rat) : Rat × Int × Rat :=
  let k := nearestInt (perUnit * x)
  let r := rounded (k * negatedPart.2 + rounded (k * negatedPart.1 + x))
  let r := rounded (r + rest)
  let (root, left) := (roots[(k % 128).toNat]?).getD (0, 0)
  let square := rounded (r * r)
  let (c2, c3, c4, c5) := coefficients
  let factor := rounded (ofBits left + r)
  let factor := rounded (square * rounded (r * c3 + c2) + factor)
  let factor := rounded (rounded (square * square) * rounded (r * c5 + c4) + factor)
  (ofBits root, k / 128, factor)

/-- The result where it may be too large for a double. -/
def large (root : Rat) (e : Int) (factor : Rat) : Option Rat :=
  let base := shifted root (e - 1009)
  let result := shifted (rounded (base * factor + base)) 1009
  if result < bound then some result else none

/-- The result where it may be too small for all of its bits, which are rounded only once. -/
def small (root : Rat) (e : Int) (factor : Rat) : Rat :=
  let base := shifted root (e + 1022)
  let more := rounded (base * factor)
  let sum := rounded (base + more)
  let sum :=
    if sum < 1 then
      let low := rounded (rounded (base - sum) + more)
      let high := rounded (1 + sum)
      let low := rounded (rounded (rounded (1 - high) + sum) + low)
      rounded (rounded (high + low) - 1)
    else sum
  rounded (shifted sum (-1022))

end Exponential

/-- The exponential of a number in two parts; `none` where it is too large for a double. -/
def exponential (x rest : Rat) : Option Rat :=
  if x.abs < scale 1 (-54) then some 1
  else if 1024 ≤ x then none
  else if x ≤ -1024 then some 0
  else
    let (root, e, factor) := Exponential.split x rest
    if 512 ≤ x then Exponential.large root e factor
    else if x ≤ -512 then some (Exponential.small root e factor)
    else
      let base := shifted root e
      some (rounded (base * factor + base))

end BlockFsck.Double
