/-!
# `EventPipeline.Text.Category`: the general categories of code points

Every code point has one of thirty categories. The table gives the categories of
successive stretches of code points, from 0 on: a letter for the category and the length
of the stretch, which is left out when it is 1.
-/

set_option autoImplicit false

namespace EventPipeline.Text

/-- The general categories. -/
inductive Category where
  | upperLetter | lowerLetter | titleLetter | modifierLetter | otherLetter
  | nonspacingMark | spacingMark | enclosingMark
  | decimalNumber | letterNumber | otherNumber
  | connector | dash | openPunctuation | closePunctuation
  | initialQuote | finalQuote | otherPunctuation
  | mathSymbol | currencySymbol | modifierSymbol | otherSymbol
  | spaceSeparator | lineSeparator | paragraphSeparator
  | control | format | surrogate | privateUse | unassigned
deriving DecidableEq, Repr, Inhabited

namespace Category

/-- The two-letter name of a category. -/
def name : Category → String
  | upperLetter => "Lu"
  | lowerLetter => "Ll"
  | titleLetter => "Lt"
  | modifierLetter => "Lm"
  | otherLetter => "Lo"
  | nonspacingMark => "Mn"
  | spacingMark => "Mc"
  | enclosingMark => "Me"
  | decimalNumber => "Nd"
  | letterNumber => "Nl"
  | otherNumber => "No"
  | connector => "Pc"
  | dash => "Pd"
  | openPunctuation => "Ps"
  | closePunctuation => "Pe"
  | initialQuote => "Pi"
  | finalQuote => "Pf"
  | otherPunctuation => "Po"
  | mathSymbol => "Sm"
  | currencySymbol => "Sc"
  | modifierSymbol => "Sk"
  | otherSymbol => "So"
  | spaceSeparator => "Zs"
  | lineSeparator => "Zl"
  | paragraphSeparator => "Zp"
  | control => "Cc"
  | format => "Cf"
  | surrogate => "Cs"
  | privateUse => "Co"
  | unassigned => "Cn"

/-- The categories in the order of their letters in the table. -/
def all : Array Category := #[
  upperLetter, lowerLetter, titleLetter, modifierLetter, otherLetter,
  nonspacingMark, spacingMark, enclosingMark,
  decimalNumber, letterNumber, otherNumber,
  connector, dash, openPunctuation, closePunctuation,
  initialQuote, finalQuote, otherPunctuation,
  mathSymbol, currencySymbol, modifierSymbol, otherSymbol,
  spaceSeparator, lineSeparator, paragraphSeparator,
  control, format, surrogate, privateUse, unassigned]

/-- The category of a letter of the table. -/
def ofLetter (c : Char) : Category :=
  let n := c.toNat
  all[if 97 ≤ n then n - 97 else n - 65 + 26]?.getD unassigned

/-- The table: stretches of code points of one category. -/
def stretches : String := String.join [
  "z32wr3tr3norsrmr2i10r2s3r2a26nroulub26nsosz33wrt4vruvepsAvuvsk2ubr2ukeqk3ra23sa7b24sb8ab",
  "ababababababababababababababababababababababababababab2abababababababab2abababababababab",
  "abababababababababababababababa2babab3a2baba2ba3b2a4ba2ba3b3a2ba2bababa2bab2aba2ba3baba2",
  "b2eab3e4acbacbacbabababababababab2ababababababababab2acbaba3babababababababababababababa",
  "bababababababababababababababab7a2ba2b2aba4babababab69e2b26d18u4d12u14d5u7dudu17f112abab",
  "duabD2db3raD4u2ara3DaDa2ba17Da9b35ab2a3b3abababababababababababab5absaba2b2a51b48abababa",
  "babababababababababababababvf5h2abababababababababababababababababababababababababababa2",
  "babababababab2ababababababababababababababababababababababababababababababababababababab",
  "abababababababababababDa38D2dr6b41rmD2v2tDf45mfrf2rf2rfD8e27D4e4r2D11A6s3r2tr2v2f11rAr3e",
  "32de10f21i10r4e2fe99ref7Avf6d2f2vf4e2i10e3v2er14DAefe30f27D2e89f11eD14i10e33f9d2vr3dD2ft",
  "2e22f4df9df3df5D2r15De25f3D2rDe11D5e24ue7A2D5f9e41df24Af32ge54fgfeg3f8g4fg2ef7e10f2r2i10",
  "rde15fg2De8D2e2D2e22De7DeD3e4D2feg3f4D2g2D2g2feD8gD4e2De3f2D2i10e2t2k6vterfD2f2gDe6D4e2D",
  "2e22De7De2De2De2D2fDg3f2D4f2D2f3D3fD7e4DeD7i10f2e3frD10f2gDe9De3De22De7De2De5D2feg3f5Df2",
  "gDg2fD2eD15e2f2D2i10rtD7ef6Dfg2De8D2e2D2e22De7De2De5D2fegfgf4D2g2D2g2fD7f2gD4e2De3f2D2i1",
  "0vek6D10feDe6D3e3De4D3e2DeDe2D3e2D3e3D3e12D4g2fg2D3g3Dg3fD2eD6gD14i10k3v6tvD5fg3fe8De3De",
  "23De16D2fef3g4Df3Df4D7f2De3De2D2e2f2D2i10D7rk7vefg2re8De3De23De10De5D2fegfg5Dfg2Dg2f2D7g",
  "2D5e3De2f2D2i10De2gD12f2g2e9De3De41f2eg3f4Dg3Dg3fevD4e3gk7e3f2D2i10k9ve6Dfg2De18D3e24De9",
  "DeD2e7D3fD4g3f3DfDg8D6i10D2g2rD12e48fe2f7D4te6df8ri10r2D37e2DeDe5De24DeDe10fe2f9eD2e5DdD",
  "f7Di10D2e4D32ev3r15vrv3f2v6i10k10vfvfvfnonog2e8De36D4f14gf5rf2e5f11Df36Dv8fv6Dv2r5v4r2D3",
  "7e43g2f4gf6gf2g2f2ei10r6e6g2f2e4f3eg3e2g7e3f4e13fg2f2g6fegi10g3fv2a38DaD5aD2b43rdb3e329D",
  "e4D2e7DeDe4D2e41De4D2e33De4D2e7DeDe4D2e15De57De4D2e67D2f3r9k20D3e16v10D6a86D2b6D2me620vr",
  "e17we26noD3e75r3j3e8D7e18f3gD9e19f2gr2D9e18f2D12e13De3Df2D12e52f2gf7g8fg2f11r3dr3tefD2i1",
  "0D6k10D6r6mr4f3Afi10D6e35de53D7e5f2e34feD5e70D10e31Df3g4f2g3D4g2fg6f3D4vD3r2i10e30D2e5D1",
  "1e44D4e26D6i10kD3v34e23f2g2fD2r2e53gfgf7Dfgfg2f8g6f10D2fi10D6i10D6r7dr6D2f14hf31D2f12D20",
  "f4ge47fgf5gfg5fg2e8Dr2i10r7v10f9v9r3f2ge30gf4g2f2gf3e2i10e44fgf2g3fgf3g2D8r4e36g8f8g2f2D",
  "3r5i10D3e3i10e30d6r2b9abD5a43D2a3r8D8f3rf13gf7e4fe6fe2gf2eD5b44d63b13db34d37f64ababababa",
  "babababababababababababababababababababababababababababababababababababababababababababa",
  "babababababababababababababababababababababababababab9ababababababababababababababababab",
  "abababababababababababababababababababababababababababababababab9a8b6D2a6D2b8a8b8a8b6D2a",
  "6D2b8DaDaDaDab8a8b14D2b8c8b8c8b8c8b5Db2a4cubu3b3Db2a4cu3b4D2b2a4Du3b8a5u3D2b3Db2a4cu2Dw1",
  "1A5m6r2pqnp2qnpr8xyA5wr9pqr4l2r3snor11srlr10wA5DA10kdD2k6s3nodk10s3noDd13D3t34D14f13h4fh",
  "3f12D15v2av4av2ba3b2a3bvav2sa5v6avavava4vba4be4bv2b2a2s5ab4vsv2bvk16j35abj4kv2D4s5v5s2v4",
  "sv2sv2sv7sv31s2v2svsv31s268v8nonov20s2v7nov81sv30s25v40s6v72D22v11D21k60v78k22v183sv9sv5",
  "4s8v111sv248nononononononok30v44s5nos31nononononos16v256s131nononononononononononos63non",
  "os32nos258v48s21v2s6v39D2v138a48b48aba3b2abababa4bab2ab6d2a3babababababababababababababa",
  "bababababababababababababababababababababababababababababababababababab2v6ababf3abD5r4kr",
  "2b38DbD5bD2e56D7drD14fe23D9e7De7De7De7De7De7De7De7Df32r2pqpqr3pqrpqr9mr2mrpqr2pqnononono",
  "r5dr10m2r4mrnr13v2r3nonononomD34v26Dv89D12v214D26v16wr3vdejnononononov2nonononomno2vj9f4",
  "g2md5v2j3derv2De86D2f2u2d2eme90rd3eD5e43De94Dv2k4v10e32v38D9ve16v31Dk10v30k8vk15v32k10v3",
  "9k15v320e6592v64e21013de1143D3v55D9e40d6r2e268dr3e16i10e2D20abababababababababababababab",
  "abababababababababefh3rf10rdababababababababababababababd2f2e70j10f2r6D8u23d9u2ababababa",
  "babab3abababababababababababababababababababababababababababababababdb8ababa2bababababdu",
  "2ababeabab3ababababababababababa5ba5babababababababa4baba2babababababababaD20d4abed2be7f",
  "e3fe4fe23g2f2gv4fD3k6v2tvD6e52r4D8g2e50g16f2D8r2i10D6f18e6r3ere2fi10e28f8r2e23f11g2D11re",
  "29D3f3ge47fg2f4g2f2g3r13Ddi10D4r2e5fde9i10e5De41f6g2f2g2f2D9e3fe8fgD2i10D2r4e16de6v3egfg",
  "e50fef3e2f2e5f2efeD24e2dr2e11gf2g2r2ed2gfD10e6D2e6D2e6D9e7De7Db43ud4b9du2D4b80e35g2fg2fg",
  "2rgfD2i10D6e11172D12e23D4e49D4B2048C6400e366D2e106D38b7D12b5D5efe10se13De5DeDe2De2De108u",
  "17v16e363onv16e64v2e54v8D32e12tv3f16r7norD6f16rm2l2nonononononononor2nor4l3r3Dr4mnononor",
  "3sms3Drtr2D4e5De135D2ADr3tr3norsrmr2i10r2s3r2a26nroulub26nsosnornor2e10de45d2e31D3e6D2e6",
  "D2e6D2e3D3t2suvt2Dvs4v2D10A3v2D2e12De26De19De2De15D2e14D34e123D5r3D4k45D3v9j53k4v17k2v3D",
  "v13D3vD47v45fD130e29D3e49D15fk27D4e32k4D9e20je8jD5e38f5D5e30Dre36D4e8rj5D42a40b40e78D2i1",
  "0D6a36D4b36D4e40D8e52D11ra11Da15Da7Da2Db11Db15Db7Db2D3e52D12e311D9e22D10e8D24d6Dd42Dd9D6",
  "9e6D2eDe44De2D3eD2e23Drk8e23v2k7e31D8k9D48e19De2D5k5e22k6D3re26D5re26D38e56D4k2e2k16D2k4",
  "6ef3Df2D5f4e4De3De29D2f3D4fk9D7r9D7e29k2re29k3D32e8ve28f2D4k5r7D9e54D3r7e22D2k8e19D5k8e1",
  "8D7r4D12k7D80e73D55a51D13b51D7k6e36f4D8i10D6i10e4dea22D3f5mdb22D8s2D208k31De42Df2mD2e2D1",
  "6e3de2D8rv8D33f6e29k10eD8e22f11k4r5D22e18f4r4D38e21k7D20e23D9gfge53f15r7D4k20i10fe2f2eD9",
  "f3ge45g3f4g2f2r2Ar4fD10AD2e25D7i10D6f3e36f5gf8Di10r4eg2eD8e35fr2eD9f2ge48g3f9g2e4r4f4rgf",
  "i10erer3Dk20D11e18De25g3f3g2fgf2r6fe2fD62e7DeDe4De15De10rD6e47fg3f8D5i10D6f2g2De8D2e2D2e",
  "22De7De2De5Df2eg2fg4D2g2D2g3D2eD6gD5e5g2D2f7D3f5D11e10DeD2eDe38Deg3f6DgD2gDg4Dg2fgfefer2",
  "Dr2D8f2D29e53g3f8g2f3gfe4r5i10r2Drfe3D30e48g3f6gfg4f2gf2e2reD8i10D166e47g3f4D2g4f2gf2r23",
  "e4f2D34e48g3f8g2fgf2r3eD11i10D6r13D19e43fgfg2f6gferD6i10D6i20D28e27D2fgfg2f4gf5D4i10k2r3",
  "ve7D185e44g3f9gf2rD100a32b32i10k9D12e8D2eD2e8De2De24g6Dg2D2f2gfegegfr3D9i10D70e8D2e39g3f",
  "4D2f2g4feregD27ef10e40f6gef4r8fD8ef6g2f3e46f13gf2r3er5D13e73D7r10D86fgf3gfgD88e33rD14i10",
  "D6e9De37gf7Df6gfer5D10i10k19D3r2e30D2f22Dgf7gf2gf2D73e7De2De38f6D3fDf2Df7efD8i10D6e6De2D",
  "e32g5Df2Dg2fgfeD7i10D6e41de2D4i10D246e19f2g2r2D7f2ege13De34g2f5D3g2fgfr13i10fD85eD15k21v",
  "8t4v17D13re922D102j111Dr5D11e196D2636e97r2D13e1072A16fe6f15D10e3995D5e583D6841e30f12g3f3",
  "i10D1734e569D7e31Di10D4r2e79Di10D6e30D2f5rD10e48f7r5v4d4rvD10i10Dk7De21D5e19D432d3e40d2r",
  "3i10D198a32b32k23r4D5a25D2b25D44e75D4feg55D7f4d13D64d2rdfD11g2d2j3D9e7382D41e32D97e115D8",
  "701d4Dd7Dd2De291D15eD29e3D2eD14e4D8e396D2308e107D5e13D3e9D7e10D2vf2rA4D3932v240i10v3D3v4",
  "36D6v23D15v16sD15f46D2f23D9v116D60v246D10v39D2v60g2f3v3g6A8f8v2f7v30f4v61D21v66f3vD122k2",
  "0D12k20D12v87D9k25D135a26b26a26b7Db18a26b26aDa2D2aD2a2D2a4Da8b4DbDb7Db11a26b26a2Da4D2a8D",
  "a7Db26a2Da4Da5DaD3a7Db26a26b26a26b26a26b26a26b26a26b26a26b28D2a25sb25sb6a25sb25sb6a25sb2",
  "5sb6a25sb25sb6a25sb25sb6abD2i50v512f55v4f50v8fv14fv2r5D15f5Df15D1104b10eb20D6b6D213f7Df1",
  "7D2f7Df2Df5D5d62D33fD112e45D3f7d7D2i10D4evD320e30fD17e44f4i10D5tD464e27df4i10D214e30f2ei",
  "10D4rD192e31De3fe2fe7f2e5fD8edD224e7De4De2De15De197D2k9f7D41a34b34f7dD4i10D4r2D785k59vk3",
  "tk4D76k45vk15D194e4De27De2DeD2eDe10De4DeDeD6eD4eDeDeDe3De2DeD2eDeDeDeDeDe2DeD2e4De7De4De",
  "4DeDe10De17D5e3De5De17D52s2D270v44D4v100D12v15D2v15Dv15Dv37D10k13v161D56v29D13v44D4v9D7v",
  "2D14v6D154v251u5v729D3v17D3v13D3v218D6v12D4vD15v12D4v56D8v10D6v40D8v30D2v12D4v2D14s9D39v",
  "344D8v14D2v13D3v11D3v57DvD4v16D2v12D4v10D7v147Dv92i10vD1029e42720D32e4382D2e5774D2e7473D",
  "15e622D2466e542D1506e4939D5e8490D707463AD30A96D128f240D65040C65534D2C65534D2"]

/-- The first code point of every stretch with its category. -/
def starts : Array (Nat × Category) :=
  let close (done : Array (Nat × Category)) (start : Nat) (category : Option Category)
      (length : Nat) : Array (Nat × Category) × Nat :=
    match category with
    | none => (done, start)
    | some category => (done.push (start, category), start + max length 1)
  let step (state : Array (Nat × Category) × Nat × Option Category × Nat) (c : Char) :=
    let (done, start, category, length) := state
    if c.isDigit then (done, start, category, 10 * length + (c.toNat - 48))
    else
      let (done, start) := close done start category length
      (done, start, some (ofLetter c), 0)
  let (done, start, category, length) := stretches.toList.foldl step (#[], 0, none, 0)
  (close done start category length).1

/-- The last stretch between `low` and `high` that starts at or before `n`. -/
def search (table : Array (Nat × Category)) (n : Nat) (fuel low high : Nat) : Category :=
  match fuel with
  | 0 => unassigned
  | fuel + 1 =>
    if high ≤ low + 1 then (table[low]?.map (·.2)).getD unassigned
    else
      let middle := (low + high) / 2
      if (table[middle]?.map (·.1)).getD 0 ≤ n then search table n fuel middle high
      else search table n fuel low middle

/-- The category of a character. -/
def of (c : Char) : Category :=
  search starts c.toNat 16 0 starts.size

/-- Letters, marks, numbers, punctuation, symbols, separators and the rest, as the first
letter of the category's name. -/
def major (category : Category) : Char :=
  category.name.toList.headD 'C'

end Category

/-- Letters. -/
def isLetter (c : Char) : Bool :=
  if c.toNat < 128 then c.isAlpha else (Category.of c).major == 'L'

/-- Decimal digits of any script. -/
def isDecimalDigit (c : Char) : Bool :=
  if c.toNat < 128 then c.isDigit else Category.of c == .decimalNumber

/-- The code point lies in one of the closed ranges. -/
def inRanges (ranges : List (Nat × Nat)) (c : Char) : Bool :=
  ranges.any fun range => range.1 ≤ c.toNat && c.toNat ≤ range.2

/-- Symbols that count as letters: circled, squared and parenthesised Latin letters. -/
def letterLikeSymbols : List (Nat × Nat) :=
  [(0x24B6, 0x24E9), (0x1F130, 0x1F149), (0x1F150, 0x1F169), (0x1F170, 0x1F189)]

/-- Alphabetic characters. -/
def isAlphabetic (c : Char) : Bool :=
  if c.toNat < 128 then c.isAlpha
  else
    let category := Category.of c
    category.major == 'L' || category == .letterNumber || inRanges letterLikeSymbols c
      || inRanges alphabeticMarks c
where
  /-- Marks that count as alphabetic. -/
  alphabeticMarks : List (Nat × Nat) := [
    (837, 837), (867, 879), (1456, 1469), (1471, 1471), (1473, 1474), (1476, 1477),
    (1479, 1479), (1552, 1562), (1611, 1623), (1625, 1631), (1648, 1648), (1750, 1756),
    (1761, 1764), (1767, 1768), (1773, 1773), (1809, 1809), (1840, 1855), (1958, 1968),
    (2070, 2071), (2075, 2083), (2085, 2087), (2089, 2092), (2199, 2199), (2260, 2271),
    (2275, 2281), (2288, 2307), (2362, 2363), (2366, 2380), (2382, 2383), (2389, 2391),
    (2402, 2403), (2433, 2435), (2494, 2500), (2503, 2504), (2507, 2508), (2519, 2519),
    (2530, 2531), (2561, 2563), (2622, 2626), (2631, 2632), (2635, 2636), (2641, 2641),
    (2672, 2673), (2677, 2677), (2689, 2691), (2750, 2757), (2759, 2761), (2763, 2764),
    (2786, 2787), (2810, 2812), (2817, 2819), (2878, 2884), (2887, 2888), (2891, 2892),
    (2902, 2903), (2914, 2915), (2946, 2946), (3006, 3010), (3014, 3016), (3018, 3020),
    (3031, 3031), (3072, 3076), (3134, 3140), (3142, 3144), (3146, 3148), (3157, 3158),
    (3170, 3171), (3201, 3203), (3262, 3268), (3270, 3272), (3274, 3276), (3285, 3286),
    (3298, 3299), (3315, 3315), (3328, 3331), (3390, 3396), (3398, 3400), (3402, 3404),
    (3415, 3415), (3426, 3427), (3457, 3459), (3535, 3540), (3542, 3542), (3544, 3551),
    (3570, 3571), (3633, 3633), (3636, 3642), (3661, 3661), (3761, 3761), (3764, 3769),
    (3771, 3772), (3789, 3789), (3953, 3971), (3981, 3991), (3993, 4028), (4139, 4150),
    (4152, 4152), (4155, 4158), (4182, 4185), (4190, 4192), (4194, 4196), (4199, 4205),
    (4209, 4212), (4226, 4237), (4239, 4239), (4250, 4253), (5906, 5907), (5938, 5939),
    (5970, 5971), (6002, 6003), (6070, 6088), (6277, 6278), (6313, 6313), (6432, 6443),
    (6448, 6456), (6679, 6683), (6741, 6750), (6753, 6772), (6847, 6848), (6860, 6862),
    (6912, 6916), (6965, 6979), (7040, 7042), (7073, 7081), (7084, 7085), (7143, 7153),
    (7204, 7222), (7635, 7668), (11744, 11775), (42612, 42619), (42654, 42655), (43010, 43010),
    (43019, 43019), (43043, 43047), (43136, 43137), (43188, 43203), (43205, 43205), (43263, 43263),
    (43302, 43306), (43335, 43346), (43392, 43395), (43444, 43455), (43493, 43493), (43561, 43574),
    (43587, 43587), (43596, 43597), (43643, 43645), (43696, 43696), (43698, 43700), (43703, 43704),
    (43710, 43710), (43755, 43759), (43765, 43765), (44003, 44010), (64286, 64286), (66422, 66426),
    (68097, 68099), (68101, 68102), (68108, 68111), (68900, 68903), (68969, 68969), (69291, 69292),
    (69370, 69372), (69632, 69634), (69688, 69701), (69747, 69748), (69760, 69762), (69808, 69816),
    (69826, 69826), (69888, 69890), (69927, 69938), (69957, 69958), (70016, 70018), (70067, 70079),
    (70094, 70095), (70188, 70196), (70199, 70199), (70206, 70206), (70209, 70209), (70367, 70376),
    (70400, 70403), (70462, 70468), (70471, 70472), (70475, 70476), (70487, 70487), (70498, 70499),
    (70584, 70592), (70594, 70594), (70597, 70597), (70599, 70602), (70604, 70605), (70709, 70721),
    (70723, 70725), (70832, 70849), (71087, 71093), (71096, 71102), (71132, 71133), (71216, 71230),
    (71232, 71232), (71339, 71349), (71453, 71466), (71724, 71736), (71984, 71989), (71991, 71992),
    (71995, 71996), (72000, 72000), (72002, 72002), (72145, 72151), (72154, 72159), (72164, 72164),
    (72193, 72202), (72245, 72249), (72251, 72254), (72273, 72283), (72330, 72343), (72544, 72551),
    (72751, 72758), (72760, 72766), (72850, 72871), (72873, 72886), (73009, 73014), (73018, 73018),
    (73020, 73021), (73023, 73025), (73027, 73027), (73031, 73031), (73098, 73102), (73104, 73105),
    (73107, 73110), (73459, 73462), (73472, 73473), (73475, 73475), (73524, 73530), (73534, 73536),
    (90398, 90414), (94031, 94031), (94033, 94087), (94095, 94098), (94192, 94193), (113822, 113822),
    (122880, 122886), (122888, 122904), (122907, 122913), (122915, 122916), (122918, 122922), (123023, 123023),
    (124643, 124643), (124646, 124646), (124654, 124655), (124661, 124661), (125255, 125255)]

/-- Letters and numbers: alphabetic characters and numbers of any kind. -/
def isAlphanumeric (c : Char) : Bool :=
  isAlphabetic c || (if c.toNat < 128 then c.isDigit else (Category.of c).major == 'N')

/-- Characters of words: letters, marks, decimal digits, connectors such as the
underscore, and the two joiners. -/
def isWordChar (c : Char) : Bool :=
  if c.toNat < 128 then c.isAlphanum || c == '_'
  else
    let category := Category.of c
    category.major == 'L' || category.major == 'M' || category == .letterNumber
      || category == .decimalNumber || category == .connector
      || inRanges letterLikeSymbols c || c.toNat == 0x200C || c.toNat == 0x200D

end EventPipeline.Text
