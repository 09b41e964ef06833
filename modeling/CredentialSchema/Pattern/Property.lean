import CredentialSchema.Pattern.Size
import CredentialSchema.Text.Digits
import CredentialSchema.Unicode.Ranges

/-!
The Unicode properties that a pattern may ask for, by their names. Small and capital letters,
blanks, hyphens and underscores in a name do not matter, nor does a leading `is`. A property that
no character has cannot be asked for.
-/
namespace CredentialSchema.Pattern

structure Property where
  names : List String
  size : Size
deriving Repr

namespace Property

/-- The size that stands for all properties with few ranges of characters. It is an estimate: such a
property hardly ever takes an automaton over its limit. -/
def smallSize : Size := ⟨500, 700⟩

/-- A property from its names and, if they are written, its sizes read forward and backward. -/
def ofWord (cs : List Char) : Property :=
  let fields := cs.splitOn ','
  let sizes := fields.filterMap Text.decimal?
  { names := (fields.filter fun f => (Text.decimal? f).isNone).map String.ofList
    size := match sizes with
      | [forward, backward] => ⟨forward, backward⟩
      | _ => smallSize }

def list (s : String) : List Property := (Unicode.words s).map ofWord

/-- The general categories, with the sets of all characters, of those that are assigned and of those
of ASCII. Surrogates are no characters, so no category holds them. -/
def categoryText : String :=
  "c,other,19269,42777 cc,control,cntrl cf,format,1400,1784 cn,unassigned,19003,42100
  co,privateuse l,letter,18441,42657 lc,casedletter,4409,9569 ll,lowercaseletter,8149,27615
  lm,modifierletter,3133,5112 lo,otherletter,15125,34002 lt,titlecaseletter
  lu,uppercaseletter,7578,26556 m,mark,combiningmark,9705,18750 mc,spacingmark,4998,10291
  me,enclosingmark mn,nonspacingmark,9908,19417 n,number,4874,9700
  nd,decimalnumber,digit,1537,5021 nl,letternumber no,othernumber,3584,5100
  p,punctuation,punct,6721,11808 pc,connectorpunctuation pd,dashpunctuation,970,1372
  pe,closepunctuation,1552,3504 pf,finalpunctuation pi,initialpunctuation
  po,otherpunctuation,6259,11156 ps,openpunctuation,1616,3644 s,symbol,8044,15770
  sc,currencysymbol,1280,1720 sk,modifiersymbol,1288,2020 sm,mathsymbol,2361,4070
  so,othersymbol,6762,13109 z,separator zl,lineseparator zp,paragraphseparator zs,spaceseparator
  any ascii assigned,19003,42100"

def scriptText : String :=
  "adlm,adlam aghb,caucasianalbanian ahom arab,arabic,1540,3351 armi,imperialaramaic
  armn,armenian avst,avestan bali,balinese bamu,bamum bass,bassavah batk,batak beng,bengali
  bhks,bhaiksuki bopo,bopomofo brah,brahmi brai,braille bugi,buginese buhd,buhid cakm,chakma
  cans,canadianaboriginal cari,carian cham cher,cherokee chrs,chorasmian copt,coptic,qaac
  cpmn,cyprominoan cprt,cypriot cyrl,cyrillic,904,1244 deva,devanagari diak,divesakuru
  dogr,dogra dsrt,deseret dupl,duployan egyp,egyptianhieroglyphs elba,elbasan elym,elymaic
  ethi,ethiopic,1024,2016 geor,georgian glag,glagolitic gong,gunjalagondi gonm,masaramgondi
  goth,gothic gran,grantha grek,greek,1232,2244 gujr,gujarati guru,gurmukhi hang,hangul,864,1456
  hani,han,1582,3543 hano,hanunoo hatr,hatran hebr,hebrew hira,hiragana
  hluw,anatolianhieroglyphs hmng,pahawhhmong hmnp,nyiakengpuachuehmong hung,oldhungarian
  ital,olditalic java,javanese kali,kayahli kana,katakana,880,1220 kawi khar,kharoshthi
  khmr,khmer khoj,khojki kits,khitansmallscript knda,kannada kthi,kaithi lana,taitham laoo,lao
  latn,latin,1671,2772 lepc,lepcha limb,limbu lina,lineara linb,linearb lisu lyci,lycian
  lydi,lydian mahj,mahajani maka,makasar mand,mandaic mani,manichaean marc,marchen
  medf,medefaidrin mend,mendekikakui merc,meroiticcursive mero,meroitichieroglyphs
  mlym,malayalam modi mong,mongolian mroo,mro mtei,meeteimayek mult,multani mymr,myanmar
  nagm,nagmundari nand,nandinagari narb,oldnortharabian nbat,nabataean newa nkoo,nko nshu,nushu
  ogam,ogham olck,olchiki orkh,oldturkic orya,oriya osge,osage osma,osmanya ougr,olduyghur
  palm,palmyrene pauc,paucinhau perm,oldpermic phag,phagspa phli,inscriptionalpahlavi
  phlp,psalterpahlavi phnx,phoenician plrd,miao prti,inscriptionalparthian rjng,rejang
  rohg,hanifirohingya runr,runic samr,samaritan sarb,oldsoutharabian saur,saurashtra
  sgnw,signwriting shaw,shavian shrd,sharada sidd,siddham sind,khudawadi sinh,sinhala
  sogd,sogdian sogo,oldsogdian sora,sorasompeng soyo,soyombo sund,sundanese sylo,sylotinagri
  syrc,syriac tagb,tagbanwa takr,takri tale,taile talu,newtailue taml,tamil tang,tangut
  tavt,taiviet telu,telugu tfng,tifinagh tglg,tagalog thaa,thaana thai tibt,tibetan tirh,tirhuta
  tnsa,tangsa toto ugar,ugaritic vaii,vai vith,vithkuqi wara,warangciti wcho,wancho
  xpeo,oldpersian xsux,cuneiform yezi,yezidi yiii,yi zanb,zanabazarsquare
  zinh,inherited,qaai,1622,2433 zyyy,common,6362,12472 gara,garay gukh,gurungkhema krai,kiratrai
  onao,olonal sunu,sunuwar todr,todhri tutg,tulutigalari"

def binaryText : String :=
  "ahex,asciihexdigit alpha,alphabetic,19721,46857 bidic,bidicontrol bidim,bidimirrored,2568,5560
  ci,caseignorable,12533,24635 cased,4737,10365 cwcf,changeswhencasefolded,6901,25134
  cwcm,changeswhencasemapped,3963,8436 cwl,changeswhenlowercased,6642,24564
  cwt,changeswhentitlecased,7062,25420 cwu,changeswhenuppercased,7110,25488 dash,1122,1612
  di,defaultignorablecodepoint,1200,1476 dep,deprecated dia,diacritic,7256,13303 emoji,3368,7660
  ecomp,emojicomponent emod,emojimodifier ebase,emojimodifierbase,1184,2144
  epres,emojipresentation,2456,4856 extpict,extendedpictographic,3242,7242
  ext,extender,1964,2909 grbase,graphemebase,22674,55286 grext,graphemeextend,10191,20243
  grlink,graphemelink hex,hexdigit hyphen idsb,idsbinaryoperator idst,idstrinaryoperator
  idc,idcontinue,20292,49264 ids,idstart,18377,42793 ideo,ideographic,1729,3890
  joinc,joincontrol loe,logicalorderexception lower,lowercase,8373,28243 math,3217,7278
  nchar,noncharactercodepoint,440,1992 oalpha,otheralphabetic odi,otherdefaultignorablecodepoint
  ogrext,othergraphemeextend oidc,otheridcontinue oids,otheridstart olower,otherlowercase
  omath,othermath oupper,otheruppercase patsyn,patternsyntax,920,1792 patws,patternwhitespace
  pcm,prependedconcatenationmark qmark,quotationmark radical ri,regionalindicator
  sterm,sentenceterminal,3601,5662 sd,softdotted,1536,2248 term,terminalpunctuation,4465,7191
  uideo,unifiedideograph,1155,2699 upper,uppercase,7842,27036 vs,variationselector
  wspace,whitespace,space xidc,xidcontinue,20404,49652 xids,xidstart,18529,43181
  mcm,modifiercombiningmark idsu,idsunaryoperator idcompatmathcontinue idcompatmathstart"

/-- How a character takes part in the division of a text into what readers see as one sign. -/
def graphemeText : String :=
  "cn,control,1072,1556 cr ex,extend,9960,19632 l lf lv,2016,20156 lvt,2072,25556 pp,prepend
  ri,regionalindicator sm,spacingmark,4664,9312 t v zwj"

def sentenceText : String :=
  "at,aterm cl,close,1512,2584 cr ex,extend,9480,18412 fo,format,1352,1716 le,oletter,15400,34536
  lf lo,lower,8200,27880 nu,numeric,1456,4676 sc,scontinue se,sep sp st,sterm,3408,5240
  up,upper,7704,26768"

def wordText : String :=
  "cr dq,doublequote ex,extendnumlet extend,9568,18512 fo,format,1344,1680 hl,hebrewletter
  ka,katakana,928,1288 le,aletter,15664,35008 lf mb,midnumlet ml,midletter mn,midnum nl,newline
  nu,numeric,1456,4676 ri,regionalindicator sq,singlequote wsegspace zwj"

/-- The versions of Unicode, each for the characters that it or one before it assigned. -/
def ageText : String :=
  "1.1,v11,7032,16976 2.0,v20,7696,19596 2.1,v21,7696,19596 3.0,v30,9048,23448
  3.1,v31,10216,26276 3.2,v32,10216,26168 4.0,v40,10608,27036 4.1,v41,11328,28760
  5.0,v50,11720,29484 5.1,v51,12312,30896 5.2,v52,13152,33396 6.0,v60,13952,35372
  6.1,v61,14720,37296 6.2,v62,14720,37296 6.3,v63,14720,37296 7.0,v70,16304,41612
  8.0,v80,16896,42648 9.0,v90,17472,44312 10.0,v100,17920,45516 11.0,v110,18368,46548
  12.0,v120,18688,47412 12.1,v121,18672,47276 13.0,v130,19184,48276 14.0,v140,19336,49064
  15.0,v150,19720,50096 15.1,v151,19720,50096 16.0,v160,19720,50096"

def valued : List (List String × List Property) := [
  (["gc", "generalcategory"], list categoryText),
  (["sc", "script", "scx", "scriptextensions"], list scriptText),
  (["gcb", "graphemeclusterbreak"], list graphemeText),
  (["sb", "sentencebreak"], list sentenceText),
  (["wb", "wordbreak"], list wordText),
  (["age"], list ageText)]

def plain : List Property := list categoryText ++ list scriptText ++ list binaryText

/-- A name without the leading `is`; a lone c that is left over belongs to another property. -/
def bare (cs : List Char) : List Char :=
  let kept (cs : List Char) := (cs.filter fun c => c.toNat < 0x80 && !" _-".toList.contains c).map
    Char.toLower
  match cs with
  | i :: s :: rest =>
    if i.toLower = 'i' ∧ s.toLower = 's' then
      if kept rest = ['c'] then ['i', 's', 'c'] else kept rest
    else kept cs
  | cs => kept cs

def divide? (mark : List Char) : List Char → Option (List Char × List Char)
  | [] => none
  | c :: cs =>
    if mark.isPrefixOf (c :: cs) then some ([], (c :: cs).drop mark.length)
    else (divide? mark cs).map fun (before, after) => (c :: before, after)

def find? (cs : List Char) : Option Property :=
  let divided := divide? ['!', '='] cs <|> divide? [':'] cs <|> divide? ['='] cs
  match divided with
  | some (key, value) => do
    let (_, among) ← valued.find? fun (keys, _) => keys.contains (.ofList (bare key))
    among.find? fun p => p.names.contains (.ofList (bare value))
  | none => plain.find? fun p => p.names.contains (.ofList (bare cs))

end Property
end CredentialSchema.Pattern
