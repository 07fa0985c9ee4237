import BlockFsck.Double

/-!
# Logarithms

The logarithm of a positive double is the sum of the logarithms of a power of two, of a point near
the rest, and of the quotient by that point. The second comes from a table and the third from a
polynomial. The result is a double and what is left over, again a double. Each step is rounded, and
it is the steps that fix the last bits.
-/

namespace BlockFsck.Double

/-- The value of the nearest double, where one is finite. -/
def rounded (x : Rat) : Rat := (nearest x).toRat?.getD 0

/-- The number with the given bits, where these are no infinity and no `nan`. -/
def ofBits (bits : Nat) : Rat :=
  let fraction : Nat := bits % Nat.pow 2 52
  let field : Nat := bits / Nat.pow 2 52 % Nat.pow 2 11
  let magnitude :=
    if field = 0 then scale fraction (-1074)
    else scale (Nat.pow 2 52 + fraction) (field - 1075)
  if bits / Nat.pow 2 63 % 2 = 1 then -magnitude else magnitude

/-- A number times a power of two. -/
def shifted (x : Rat) (e : Int) : Rat := x * scale 1 e

namespace Logarithm

/-- The points by their reciprocals, with the logarithm of each and what its rounding leaves over,
all as bits. -/
def points : List (Nat × Nat × Nat) :=
  [(0x3FF6A00000000000, 0xBFD62C82F2B9C800, 0x3CFAB42428375680),
    (0x3FF6800000000000, 0xBFD5D1BDBF580800, 0xBD1CA508D8E0F720),
    (0x3FF6600000000000, 0xBFD5767717455800, 0xBD2362A4D5B6506D),
    (0x3FF6400000000000, 0xBFD51AAD872DF800, 0xBCE684E49EB067D5),
    (0x3FF6200000000000, 0xBFD4BE5F95777800, 0xBD041B6993293EE0),
    (0x3FF6000000000000, 0xBFD4618BC21C6000, 0x3D13D82F484C84CC),
    (0x3FF5E00000000000, 0xBFD404308686A800, 0x3CDC42F3ED820B3A),
    (0x3FF5C00000000000, 0xBFD3A64C55694800, 0x3D20B1C686519460),
    (0x3FF5A00000000000, 0xBFD347DD9A988000, 0x3D25594DD4C58092),
    (0x3FF5800000000000, 0xBFD2E8E2BAE12000, 0x3D267B1E99B72BD8),
    (0x3FF5600000000000, 0xBFD2895A13DE8800, 0x3D15CA14B6CFB03F),
    (0x3FF5600000000000, 0xBFD2895A13DE8800, 0x3D15CA14B6CFB03F),
    (0x3FF5400000000000, 0xBFD22941FBCF7800, 0xBD165A242853DA76),
    (0x3FF5200000000000, 0xBFD1C898C1699800, 0xBD1FAFBC68E75404),
    (0x3FF5000000000000, 0xBFD1675CABABA800, 0x3D1F1FC63382A8F0),
    (0x3FF4E00000000000, 0xBFD1058BF9AE4800, 0xBD26A8C4FD055A66),
    (0x3FF4C00000000000, 0xBFD0A324E2739000, 0xBD0C6BEE7EF4030E),
    (0x3FF4A00000000000, 0xBFD0402594B4D000, 0xBCF036B89EF42D7F),
    (0x3FF4A00000000000, 0xBFD0402594B4D000, 0xBCF036B89EF42D7F),
    (0x3FF4800000000000, 0xBFCFB9186D5E4000, 0x3D0D572AAB993C87),
    (0x3FF4600000000000, 0xBFCEF0ADCBDC6000, 0x3D2B26B79C86AF24),
    (0x3FF4400000000000, 0xBFCE27076E2AF000, 0xBD172F4F543FFF10),
    (0x3FF4200000000000, 0xBFCD5C216B4FC000, 0x3D21BA91BBCA681B),
    (0x3FF4000000000000, 0xBFCC8FF7C79AA000, 0x3D27794F689F8434),
    (0x3FF4000000000000, 0xBFCC8FF7C79AA000, 0x3D27794F689F8434),
    (0x3FF3E00000000000, 0xBFCBC286742D9000, 0x3D194EB0318BB78F),
    (0x3FF3C00000000000, 0xBFCAF3C94E80C000, 0x3CBA4E633FCD9066),
    (0x3FF3A00000000000, 0xBFCA23BC1FE2B000, 0xBD258C64DC46C1EA),
    (0x3FF3A00000000000, 0xBFCA23BC1FE2B000, 0xBD258C64DC46C1EA),
    (0x3FF3800000000000, 0xBFC9525A9CF45000, 0xBD2AD1D904C1D4E3),
    (0x3FF3600000000000, 0xBFC87FA06520D000, 0x3D2BBDBF7FDBFA09),
    (0x3FF3400000000000, 0xBFC7AB890210E000, 0x3D2BDB9072534A58),
    (0x3FF3400000000000, 0xBFC7AB890210E000, 0x3D2BDB9072534A58),
    (0x3FF3200000000000, 0xBFC6D60FE719D000, 0xBD10E46AA3B2E266),
    (0x3FF3000000000000, 0xBFC5FF3070A79000, 0xBD1E9E439F105039),
    (0x3FF3000000000000, 0xBFC5FF3070A79000, 0xBD1E9E439F105039),
    (0x3FF2E00000000000, 0xBFC526E5E3A1B000, 0xBD20DE8B90075B8F),
    (0x3FF2C00000000000, 0xBFC44D2B6CCB8000, 0x3D170CC16135783C),
    (0x3FF2C00000000000, 0xBFC44D2B6CCB8000, 0x3D170CC16135783C),
    (0x3FF2A00000000000, 0xBFC371FC201E9000, 0x3CF178864D27543A),
    (0x3FF2800000000000, 0xBFC29552F81FF000, 0xBD248D301771C408),
    (0x3FF2600000000000, 0xBFC1B72AD52F6000, 0xBD2E80A41811A396),
    (0x3FF2600000000000, 0xBFC1B72AD52F6000, 0xBD2E80A41811A396),
    (0x3FF2400000000000, 0xBFC0D77E7CD09000, 0x3D0A699688E85BF4),
    (0x3FF2400000000000, 0xBFC0D77E7CD09000, 0x3D0A699688E85BF4),
    (0x3FF2200000000000, 0xBFBFEC9131DBE000, 0xBD2575545CA333F2),
    (0x3FF2000000000000, 0xBFBE27076E2B0000, 0x3D2A342C2AF0003C),
    (0x3FF2000000000000, 0xBFBE27076E2B0000, 0x3D2A342C2AF0003C),
    (0x3FF1E00000000000, 0xBFBC5E548F5BC000, 0xBD1D0C57585FBE06),
    (0x3FF1C00000000000, 0xBFBA926D3A4AE000, 0x3D253935E85BAAC8),
    (0x3FF1C00000000000, 0xBFBA926D3A4AE000, 0x3D253935E85BAAC8),
    (0x3FF1A00000000000, 0xBFB8C345D631A000, 0x3D137C294D2F5668),
    (0x3FF1A00000000000, 0xBFB8C345D631A000, 0x3D137C294D2F5668),
    (0x3FF1800000000000, 0xBFB6F0D28AE56000, 0xBD269737C93373DA),
    (0x3FF1600000000000, 0xBFB51B073F062000, 0x3D1F025B61C65E57),
    (0x3FF1600000000000, 0xBFB51B073F062000, 0x3D1F025B61C65E57),
    (0x3FF1400000000000, 0xBFB341D7961BE000, 0x3D2C5EDACCF913DF),
    (0x3FF1400000000000, 0xBFB341D7961BE000, 0x3D2C5EDACCF913DF),
    (0x3FF1200000000000, 0xBFB16536EEA38000, 0x3D147C5E768FA309),
    (0x3FF1000000000000, 0xBFAF0A30C0118000, 0x3D2D599E83368E91),
    (0x3FF1000000000000, 0xBFAF0A30C0118000, 0x3D2D599E83368E91),
    (0x3FF0E00000000000, 0xBFAB42DD71198000, 0x3D1C827AE5D6704C),
    (0x3FF0E00000000000, 0xBFAB42DD71198000, 0x3D1C827AE5D6704C),
    (0x3FF0C00000000000, 0xBFA77458F632C000, 0xBD2CFC4634F2A1EE),
    (0x3FF0C00000000000, 0xBFA77458F632C000, 0xBD2CFC4634F2A1EE),
    (0x3FF0A00000000000, 0xBFA39E87B9FEC000, 0x3CF502B7F526FEAA),
    (0x3FF0A00000000000, 0xBFA39E87B9FEC000, 0x3CF502B7F526FEAA),
    (0x3FF0800000000000, 0xBF9F829B0E780000, 0xBD2980267C7E09E4),
    (0x3FF0800000000000, 0xBF9F829B0E780000, 0xBD2980267C7E09E4),
    (0x3FF0600000000000, 0xBF97B91B07D58000, 0xBD288D5493FAA639),
    (0x3FF0400000000000, 0xBF8FC0A8B0FC0000, 0xBCDF1E7CF6D3A69C),
    (0x3FF0400000000000, 0xBF8FC0A8B0FC0000, 0xBCDF1E7CF6D3A69C),
    (0x3FF0200000000000, 0xBF7FE02A6B100000, 0xBD19E23F0DDA40E4),
    (0x3FF0200000000000, 0xBF7FE02A6B100000, 0xBD19E23F0DDA40E4),
    (0x3FF0000000000000, 0x0000000000000000, 0x0000000000000000),
    (0x3FF0000000000000, 0x0000000000000000, 0x0000000000000000),
    (0x3FEFC00000000000, 0x3F80101575890000, 0xBD10C76B999D2BE8),
    (0x3FEF800000000000, 0x3F90205658938000, 0xBD23DC5B06E2F7D2),
    (0x3FEF400000000000, 0x3F98492528C90000, 0xBD2AA0BA325A0C34),
    (0x3FEF000000000000, 0x3FA0415D89E74000, 0x3D0111C05CF1D753),
    (0x3FEEC00000000000, 0x3FA466AED42E0000, 0xBD2C167375BDFD28),
    (0x3FEE800000000000, 0x3FA894AA149FC000, 0xBD197995D05A267D),
    (0x3FEE400000000000, 0x3FACCB73CDDDC000, 0xBD1A68F247D82807),
    (0x3FEE200000000000, 0x3FAEEA31C006C000, 0xBD0E113E4FC93B7B),
    (0x3FEDE00000000000, 0x3FB1973BD1466000, 0xBD25325D560D9E9B),
    (0x3FEDA00000000000, 0x3FB3BDF5A7D1E000, 0x3D2CC85EA5DB4ED7),
    (0x3FED600000000000, 0x3FB5E95A4D97A000, 0xBD2C69063C5D1D1E),
    (0x3FED400000000000, 0x3FB700D30AEAC000, 0x3CEC1E8DA99DED32),
    (0x3FED000000000000, 0x3FB9335E5D594000, 0x3D23115C3ABD47DA),
    (0x3FECC00000000000, 0x3FBB6AC88DAD6000, 0xBD1390802BF768E5),
    (0x3FECA00000000000, 0x3FBC885801BC4000, 0x3D2646D1C65AACD3),
    (0x3FEC600000000000, 0x3FBEC739830A2000, 0xBD2DC068AFE645E0),
    (0x3FEC400000000000, 0x3FBFE89139DBE000, 0xBD2534D64FA10AFD),
    (0x3FEC000000000000, 0x3FC1178E8227E000, 0x3D21EF78CE2D07F2),
    (0x3FEBE00000000000, 0x3FC1AA2B7E23F000, 0x3D2CA78E44389934),
    (0x3FEBA00000000000, 0x3FC2D1610C868000, 0x3D039D6CCB81B4A1),
    (0x3FEB800000000000, 0x3FC365FCB0159000, 0x3CC62FA8234B7289),
    (0x3FEB400000000000, 0x3FC4913D8333B000, 0x3D25837954FDB678),
    (0x3FEB200000000000, 0x3FC527E5E4A1B000, 0x3D2633E8E5697DC7),
    (0x3FEAE00000000000, 0x3FC6574EBE8C1000, 0x3D19CF8B2C3C2E78),
    (0x3FEAC00000000000, 0x3FC6F0128B757000, 0xBD25118DE59C21E1),
    (0x3FEAA00000000000, 0x3FC7898D85445000, 0xBD1C661070914305),
    (0x3FEA600000000000, 0x3FC8BEAFEB390000, 0xBD073D54AAE92CD1),
    (0x3FEA400000000000, 0x3FC95A5ADCF70000, 0x3D07F22858A0FF6F),
    (0x3FEA000000000000, 0x3FCA93ED3C8AE000, 0xBD28724350562169),
    (0x3FE9E00000000000, 0x3FCB31D8575BD000, 0xBD0C358D4EACE1AA),
    (0x3FE9C00000000000, 0x3FCBD087383BE000, 0xBD2D4BC4595412B6),
    (0x3FE9A00000000000, 0x3FCC6FFBC6F01000, 0xBCF1EC72C5962BD2),
    (0x3FE9600000000000, 0x3FCDB13DB0D49000, 0xBD2AFF2AF715B035),
    (0x3FE9400000000000, 0x3FCE530EFFE71000, 0x3CC212276041F430),
    (0x3FE9200000000000, 0x3FCEF5ADE4DD0000, 0xBCCA211565BB8E11),
    (0x3FE9000000000000, 0x3FCF991C6CB3B000, 0x3D1BCBECCA0CDF30),
    (0x3FE8C00000000000, 0x3FD07138604D5800, 0x3CF89CDB16ED4E91),
    (0x3FE8A00000000000, 0x3FD0C42D67616000, 0x3D27188B163CEAE9),
    (0x3FE8800000000000, 0x3FD1178E8227E800, 0xBD2C210E63A5F01C),
    (0x3FE8600000000000, 0x3FD16B5CCBACF800, 0x3D2B9ACDF7A51681),
    (0x3FE8400000000000, 0x3FD1BF99635A6800, 0x3D2CA6ED5147BDB7),
    (0x3FE8200000000000, 0x3FD214456D0EB800, 0x3D0A87DEBA46BAEA),
    (0x3FE7E00000000000, 0x3FD2BEF07CDC9000, 0x3D2A9CFA4A5004F4),
    (0x3FE7C00000000000, 0x3FD314F1E1D36000, 0xBD28E27AD3213CB8),
    (0x3FE7A00000000000, 0x3FD36B6776BE1000, 0x3D116ECDB0F177C8),
    (0x3FE7800000000000, 0x3FD3C25277333000, 0x3D183B54B606BD5C),
    (0x3FE7600000000000, 0x3FD419B423D5E800, 0x3D08E436EC90E09D),
    (0x3FE7400000000000, 0x3FD4718DC271C800, 0xBD2F27CE0967D675),
    (0x3FE7200000000000, 0x3FD4C9E09E173000, 0xBD2E20891B0AD8A4),
    (0x3FE7000000000000, 0x3FD522AE0738A000, 0x3D2EBE708164C759),
    (0x3FE6E00000000000, 0x3FD57BF753C8D000, 0x3D1FADEDEE5D40EF),
    (0x3FE6C00000000000, 0x3FD5D5BDDF596000, 0xBD0A0B2A08A465DC)]

/-- The logarithm of two, and what its rounding leaves over. -/
def two : Rat × Rat := (ofBits 0x3FE62E42FEFA3800, ofBits 0x3D2EF35793C76730)

/-- The coefficients of the polynomial from the third power on. -/
def coefficients : List Rat :=
  [0xBFE5555555555560, 0x3FE0000000000006, 0x3FE999999959554E,
    0xBFE555555529A47A, 0xBFF2495B9B4845E9, 0x3FF0002B8B263FC3].map ofBits

/-- The value of a polynomial in `r`, by pairs of coefficients in the powers of `s`. -/
def pairwise (r s : Rat) : List Rat → Rat
  | a :: b :: [] => rounded (r * b + a)
  | a :: b :: rest => rounded (s * pairwise r s rest + rounded (r * b + a))
  | _ => 0

/-- The bits of the least number that a power of two is split off to. -/
def least : Int := 0x3FE6955500000000

end Logarithm

/-- The logarithm of a positive double in two parts. -/
def logarithm (x : Rat) : Rat × Rat :=
  let bits : Int := (toBits (.finite (shifted x 52)) : Int) - 52 * Int.pow 2 52
  let above := bits - Logarithm.least
  let k : Int := above / Int.pow 2 52
  let z := ofBits (bits - k * Int.pow 2 52).toNat
  let index := above / Int.pow 2 45 % 128
  let (reciprocal, log, rest) := (Logarithm.points[index.toNat]?).getD (0, 0, 0)
  let r := rounded (z * ofBits reciprocal - 1)
  let large := rounded (k * Logarithm.two.1 + ofBits log)
  let sum := rounded (large + r)
  let low1 := rounded (k * Logarithm.two.2 + ofBits rest)
  let low2 := rounded (rounded (large - sum) + r)
  let half := rounded (-r / 2)
  let square := rounded (r * half)
  let cube := rounded (r * square)
  let high := rounded (sum + square)
  let low3 := rounded (half * r - square)
  let low4 := rounded (rounded (sum - high) + square)
  let low := rounded (rounded (rounded (low1 + low2) + low3) + low4)
  let low := rounded (cube * Logarithm.pairwise r square Logarithm.coefficients + low)
  let result := rounded (high + low)
  (result, rounded (rounded (high - result) + low))

end BlockFsck.Double
