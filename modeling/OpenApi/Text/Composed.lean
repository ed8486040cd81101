/-
  OpenApi.Text.Composed — the composed normal form of a text.

  A character may be written as one or as a first part with a mark after it. `composed` takes all
  characters apart, puts marks that follow one another in the order of their classes, and joins each
  character with the marks after it wherever a single character says the same. Canonically equivalent texts
  have the same composed form. The table holds Unicode 17; Korean syllables are computed. Characters that are
  merely another code for the same text are not in it, since no text in composed form holds them.
-/
import OpenApi.Text.Combining

namespace OpenApi.Text

/-! ## §1. Pairs. -/

/-- Rows `(second, firsts, wholes)`: each first part with the second part is the whole at its place. -/
def compositionRows : List (Nat × String × String) :=
  [(0x300, "AEINOUWYaeinouwy¨ÂÊÔÜâêôüĂăĒēŌōƠ", "ÀÈÌǸÒÙẀỲàèìǹòùẁỳ῭ẦỀỒǛầềồǜẰằḔḕṐṑỜ"),
   (0x300, "ơƯưΑΕΗΙΟΥΩαεηιουωϊϋЕИеиἀἁἈἉἐἑἘἙἠ", "ờỪừᾺῈῊῚῸῪῺὰὲὴὶὸὺὼῒῢЀЍѐѝἂἃἊἋἒἓἚἛἢ"),
   (0x300, "ἡἨἩἰἱἸἹὀὁὈὉὐὑὙὠὡὨὩ᾿῾", "ἣἪἫἲἳἺἻὂὃὊὋὒὓὛὢὣὪὫ῍῝"),
   (0x301, "ACEGIKLMNOPRSUWYZacegiklmnoprsuw", "ÁĆÉǴÍḰĹḾŃÓṔŔŚÚẂÝŹáćéǵíḱĺḿńóṕŕśúẃ"),
   (0x301, "yz¨ÂÅÆÇÊÏÔÕØÜâåæçêïôõøüĂăĒēŌōŨũƠ", "ýź΅ẤǺǼḈẾḮỐṌǾǗấǻǽḉếḯốṍǿǘẮắḖḗṒṓṸṹỚ"),
   (0x301, "ơƯưΑΕΗΙΟΥΩαεηιουωϊϋϒГКгкἀἁἈἉἐἑἘἙ", "ớỨứΆΈΉΊΌΎΏάέήίόύώΐΰϓЃЌѓќἄἅἌἍἔἕἜἝ"),
   (0x301, "ἠἡἨἩἰἱἸἹὀὁὈὉὐὑὙὠὡὨὩ᾿῾", "ἤἥἬἭἴἵἼἽὄὅὌὍὔὕὝὤὥὬὭ῎῞"),
   (0x302, "ACEGHIJOSUWYZaceghijosuwyzẠạẸẹỌọ", "ÂĈÊĜĤÎĴÔŜÛŴŶẐâĉêĝĥîĵôŝûŵŷẑẬậỆệỘộ"),
   (0x303, "AEINOUVYaeinouvyÂÊÔâêôĂăƠơƯư", "ÃẼĨÑÕŨṼỸãẽĩñõũṽỹẪỄỖẫễỗẴẵỠỡỮữ"),
   (0x304, "AEGIOUYaegiouyÄÆÕÖÜäæõöüǪǫȦȧȮȯΑΙ", "ĀĒḠĪŌŪȲāēḡīōūȳǞǢȬȪǕǟǣȭȫǖǬǭǠǡȰȱᾹῙ"),
   (0x304, "ΥαιυИУиуḶḷṚṛ", "ῩᾱῑῡӢӮӣӯḸḹṜṝ"),
   (0x306, "AEGIOUaegiouȨȩΑΙΥαιυАЕЖИУаежиуẠạ", "ĂĔĞĬŎŬăĕğĭŏŭḜḝᾸῘῨᾰῐῠӐӖӁЙЎӑӗӂйўẶặ"),
   (0x307, "ABCDEFGHIMNOPRSTWXYZabcdefghmnop", "ȦḂĊḊĖḞĠḢİṀṄȮṖṘṠṪẆẊẎŻȧḃċḋėḟġḣṁṅȯṗ"),
   (0x307, "rstwxyzŚśŠšſṢṣ𐗒𐗚", "ṙṡṫẇẋẏżṤṥṦṧẛṨṩ𐗉𐗤"),
   (0x308, "AEHIOUWXYaehiotuwxyÕõŪūΙΥιυϒІАЕЖ", "ÄËḦÏÖÜẄẌŸäëḧïöẗüẅẍÿṎṏṺṻΪΫϊϋϔЇӒЁӜ"),
   (0x308, "ЗИОУЧЫЭаежзиоучыэіӘәӨө", "ӞӤӦӰӴӸӬӓёӝӟӥӧӱӵӹӭїӚӛӪӫ"),
   (0x309, "AEIOUYaeiouyÂÊÔâêôĂăƠơƯư", "ẢẺỈỎỦỶảẻỉỏủỷẨỂỔẩểổẲẳỞởỬử"), (0x30A, "AUauwy", "ÅŮåůẘẙ"),
   (0x30B, "OUouУу", "ŐŰőűӲӳ"),
   (0x30C, "ACDEGHIKLNORSTUZacdeghijklnorstu", "ǍČĎĚǦȞǏǨĽŇǑŘŠŤǓŽǎčďěǧȟǐǰǩľňǒřšťǔ"),
   (0x30C, "zÜüƷʒ", "žǙǚǮǯ"), (0x30F, "AEIORUaeioruѴѵ", "ȀȄȈȌȐȔȁȅȉȍȑȕѶѷ"),
   (0x311, "AEIORUaeioru", "ȂȆȊȎȒȖȃȇȋȏȓȗ"), (0x313, "ΑΕΗΙΟΩαεηιορυω", "ἈἘἨἸὈὨἀἐἠἰὀῤὐὠ"),
   (0x314, "ΑΕΗΙΟΡΥΩαεηιορυω", "ἉἙἩἹὉῬὙὩἁἑἡἱὁῥὑὡ"), (0x31B, "OUou", "ƠƯơư"),
   (0x323, "ABDEHIKLMNORSTUVWYZabdehiklmnors", "ẠḄḌẸḤỊḲḶṂṆỌṚṢṬỤṾẈỴẒạḅḍẹḥịḳḷṃṇọṛṣ"),
   (0x323, "tuvwyzƠơƯư", "ṭụṿẉỵẓỢợỰự"), (0x324, "Uu", "Ṳṳ"), (0x325, "Aa", "Ḁḁ"),
   (0x326, "STst", "ȘȚșț"), (0x327, "CDEGHKLNRSTcdeghklnrst", "ÇḐȨĢḨĶĻŅŖŞŢçḑȩģḩķļņŗşţ"),
   (0x328, "AEIOUaeiou", "ĄĘĮǪŲąęįǫų"), (0x32D, "DELNTUdelntu", "ḒḘḼṊṰṶḓḙḽṋṱṷ"),
   (0x32E, "Hh", "Ḫḫ"), (0x330, "EIUeiu", "ḚḬṴḛḭṵ"),
   (0x331, "BDKLNRTZbdhklnrtz", "ḆḎḴḺṈṞṮẔḇḏẖḵḻṉṟṯẕ"),
   (0x338, "<=>←→↔⇐⇒⇔∃∈∋∣∥∼≃≅≈≍≡≤≥≲≳≶≷≺≻≼≽⊂⊃", "≮≠≯↚↛↮⇍⇏⇎∄∉∌∤∦≁≄≇≉≭≢≰≱≴≵≸≹⊀⊁⋠⋡⊄⊅"),
   (0x338, "⊆⊇⊑⊒⊢⊨⊩⊫⊲⊳⊴⊵", "⊈⊉⋢⋣⊬⊭⊮⊯⋪⋫⋬⋭"),
   (0x342, "¨αηιυωϊϋἀἁἈἉἠἡἨἩἰἱἸἹὐὑὙὠὡὨὩ᾿῾", "῁ᾶῆῖῦῶῗῧἆἇἎἏἦἧἮἯἶἷἾἿὖὗὟὦὧὮὯ῏῟"),
   (0x345, "ΑΗΩάήαηωώἀἁἂἃἄἅἆἇἈἉἊἋἌἍἎἏἠἡἢἣἤἥἦ", "ᾼῌῼᾴῄᾳῃῳῴᾀᾁᾂᾃᾄᾅᾆᾇᾈᾉᾊᾋᾌᾍᾎᾏᾐᾑᾒᾓᾔᾕᾖ"),
   (0x345, "ἧἨἩἪἫἬἭἮἯὠὡὢὣὤὥὦὧὨὩὪὫὬὭὮὯὰὴὼᾶῆῶ", "ᾗᾘᾙᾚᾛᾜᾝᾞᾟᾠᾡᾢᾣᾤᾥᾦᾧᾨᾩᾪᾫᾬᾭᾮᾯᾲῂῲᾷῇῷ"),
   (0x653, "ا", "آ"), (0x654, "اويہےە", "أؤئۂۓۀ"), (0x655, "ا", "إ"), (0x93C, "नरळ", "ऩऱऴ"),
   (0x9BE, "ে", "ো"), (0x9D7, "ে", "ৌ"), (0xB3E, "େ", "ୋ"), (0xB56, "େ", "ୈ"), (0xB57, "େ", "ୌ"),
   (0xBBE, "ெே", "ொோ"), (0xBD7, "ஒெ", "ஔௌ"), (0xC56, "ె", "ై"), (0xCC2, "ೆ", "ೊ"),
   (0xCD5, "ಿೆೊ", "ೀೇೋ"), (0xCD6, "ೆ", "ೈ"), (0xD3E, "െേ", "ൊോ"), (0xD57, "െ", "ൌ"),
   (0xDCA, "ෙො", "ේෝ"), (0xDCF, "ෙ", "ො"), (0xDDF, "ෙ", "ෞ"), (0x102E, "ဥ", "ဦ"),
   (0x1B35, "ᬅᬇᬉᬋᬍᬑᬺᬼᬾᬿᭂ", "ᬆᬈᬊᬌᬎᬒᬻᬽᭀᭁᭃ"),
   (0x3099, "うかきくけこさしすせそたちつてとはひふへほゝウカキクケコサシスセ", "ゔがぎぐげござじずぜぞだぢづでどばびぶべぼゞヴガギグゲゴザジズゼ"),
   (0x3099, "ソタチツテトハヒフヘホワヰヱヲヽ", "ゾダヂヅデドバビブベボヷヸヹヺヾ"), (0x309A, "はひふへほハヒフヘホ", "ぱぴぷぺぽパピプペポ"),
   (0x110BA, "𑂙𑂛𑂥", "𑂚𑂜𑂫"), (0x11127, "𑄱𑄲", "𑄮𑄯"), (0x1133E, "𑍇", "𑍋"), (0x11357, "𑍇", "𑍌"),
   (0x113B8, "𑏂", "𑏇"), (0x113BB, "𑎄", "𑎅"), (0x113C2, "𑎎", "𑎎𑏅"), (0x113C9, "𑎂𑎐𑏂", "𑎃𑎑𑏈"),
   (0x114B0, "𑒹", "𑒼"), (0x114BA, "𑒹", "𑒻"), (0x114BD, "𑒹", "𑒾"), (0x115AF, "𑖸𑖹", "𑖺𑖻"),
   (0x11930, "𑤵", "𑤸"), (0x1611E, "𖄞", "𖄡"), (0x1611F, "𖄡𖄡𖄩𖄩", "𖄣𖄦𖄧𖄤"), (0x16120, "𖄡𖄞", "𖄥𖄨"),
   (0x16129, "𖄞", "𖄢"), (0x16D67, "𖵩𖵩", "𖵪𖵧𖵪")]

/-- A character and the two parts it can be taken apart into. -/
structure Composition where
  first : Char
  second : Char
  whole : Char

/-- All characters that can be taken apart, other than Korean syllables. -/
def compositions : List Composition :=
  compositionRows.flatMap fun r =>
    List.zipWith (fun first whole => ⟨first, Char.ofNat r.1, whole⟩) r.2.1.toList r.2.2.toList

/-! ## §2. Korean syllables. -/

/-- The parts of a syllable with a final consonant, or of one without. -/
def syllableParts? (c : Char) : Option (Char × Char) :=
  let n := c.toNat - 0xAC00
  if c.toNat < 0xAC00 || 0xD7A3 < c.toNat then none
  else if n % 28 = 0 then some (Char.ofNat (0x1100 + n / 588), Char.ofNat (0x1161 + n / 28 % 21))
  else some (Char.ofNat (c.toNat - n % 28), Char.ofNat (0x11A7 + n % 28))

/-- The syllable of a consonant and a vowel, or of a syllable and a final consonant. -/
def syllable? (first second : Char) : Option Char :=
  let a := first.toNat
  let b := second.toNat
  if 0x1100 ≤ a && a ≤ 0x1112 && 0x1161 ≤ b && b ≤ 0x1175 then
    some (Char.ofNat (0xAC00 + (a - 0x1100) * 588 + (b - 0x1161) * 28))
  else if 0xAC00 ≤ a && a ≤ 0xD7A3 && (a - 0xAC00) % 28 = 0 && 0x11A8 ≤ b && b ≤ 0x11C2 then
    some (Char.ofNat (a + (b - 0x11A7)))
  else none

/-! ## §3. Taking apart and joining. -/

/-- The two parts of a character. -/
def parts? (c : Char) : Option (Char × Char) :=
  if c.toNat < 0xC0 then none
  else
    match syllableParts? c with
    | some parts => some parts
    | none => (compositions.find? fun x => x.whole = c).map fun x => (x.first, x.second)

/-- The character that two parts make. -/
def whole? (first second : Char) : Option Char :=
  if second.toNat < 0x300 then none
  else
    match syllable? first second with
    | some c => some c
    | none =>
      (compositions.find? fun x => x.first = first && x.second = second).map (·.whole)

/-- A character taken apart; only its first part can be taken apart again, at most `steps` times. -/
def decomposed : (steps : Nat) → Char → List Char
  | 0, c => [c]
  | steps + 1, c =>
    match parts? c with
    | some (first, second) => decomposed steps first ++ [second]
    | none => [c]

/-- Puts a mark before the marks of a greater class at the end of a text, which is given last first. -/
def insertMark (c : Char) : List Char → List Char
  | d :: before =>
    if 0 < combiningClass c && combiningClass c < combiningClass d then d :: insertMark c before
    else c :: d :: before
  | [] => [c]

/-- The text with marks that follow one another in the order of their classes. -/
def markOrdered (s : List Char) : List Char := (s.foldl (fun before c => insertMark c before) []).reverse

/-- Joins a character with what follows it. The marks between, last first, are those that did not join; a
mark joins only if all of them have a smaller class. -/
def joined (first : Char) (between : List Char) : List Char → List Char
  | [] => first :: between.reverse
  | c :: s =>
    let isBlocked := between.head?.any fun d => combiningClass c ≤ combiningClass d
    match if isBlocked then none else whole? first c with
    | some whole => joined whole between s
    | none =>
      if combiningClass c = 0 then first :: between.reverse ++ joined c [] s
      else joined first (c :: between) s

/-- The composed form of a text. -/
def composed (s : List Char) : List Char :=
  -- no character has more than four parts
  let s := markOrdered (s.flatMap (decomposed 3))
  let isLoose (c : Char) : Bool := combiningClass c ≠ 0
  s.takeWhile isLoose ++
    match s.dropWhile isLoose with
    | [] => []
    | c :: rest => joined c [] rest

end OpenApi.Text
