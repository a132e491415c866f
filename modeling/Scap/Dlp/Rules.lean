import Scap.Dlp.Normal
import Scap.Dlp.Spans
import Scap.Lib.Regex
import Scap.Py.Hmac

/-!
# The rules of the scanner

The regular expressions of the scanner, each under the name of its detector, and the validators that
their values have to pass. What `re`, `str`, `html` and `hashlib` know of single characters, entities
and digests is given by `Characters`.
-/

namespace Scap.Dlp

open Scap.Lib Scap.Lib.Regex Scap.Py
open Scap.Sessions (DataClass)

/-- What the code asks of the character database, of `html.unescape` and of `hashlib`. The value of
a decimal digit is that of `int`, and `variants` are the characters that match one another under
`re.IGNORECASE`. -/
structure Characters extends Unicode where
  nfkc_nil : nfkc [] = []
  isAlnum : CodePoint → Bool
  decimal : CodePoint → Option (Fin 10)
  variants : CodePoint → List CodePoint
  fold : CodePoint → Str
  unescape : Str → Str
  sha256 : Bytes → Digest

inductive GroupName where
  | value
  | keyKind
  deriving DecidableEq, Repr

abbrev Pattern := Regex GroupName CodePoint

/-! ## Classes and literals -/

/-- `[a-b]`. -/
def range (a b : Char) (c : CodePoint) : Bool := a.toNat ≤ c.val && c.val ≤ b.toNat

/-- One of the characters of a string. -/
def among (s : String) (c : CodePoint) : Bool := (Str.ofString s).contains c

/-- `[A-Z]`. -/
def upper : CodePoint → Bool := range 'A' 'Z'

/-- `[0-9]`. -/
def asciiDigit : CodePoint → Bool := range '0' '9'

/-- `[A-Za-z]`. -/
def letter (c : CodePoint) : Bool := upper c || range 'a' 'z' c

/-- `[A-Za-z0-9]`. -/
def alphanumeric (c : CodePoint) : Bool := letter c || asciiDigit c

/-- `\s`, which is `str.isspace`. -/
def space (c : CodePoint) : Bool := c.char?.any isSpace

/-- A character of a class. -/
def one (p : CodePoint → Bool) : Pattern := .char p

/-- A string as it stands. -/
def lit (s : String) : Pattern := seqs ((Str.ofString s).map fun x => one (· = x))

/-- `.`, without `re.DOTALL`. -/
def dot : Pattern := one fun c => !among "\n" c

/-- `\s*`. -/
def spaces : Pattern := star (one space)

/-- `(?<!...)` with a class. -/
def notBehind (p : CodePoint → Bool) : Pattern := .assert fun before _ => !before.any p

/-- `(?!...)` with a class. -/
def notNext (p : CodePoint → Bool) : Pattern := .assert fun _ next => !next.any p

/-- `(?P<value>...)`. -/
def value (r : Pattern) : Pattern := .group .value r

namespace Characters

variable (C : Characters)

/-- `\d`, which is `str.isdecimal`. -/
def digit (c : CodePoint) : Bool := (C.decimal c).isSome

/-- `\w`. -/
def word (c : CodePoint) : Bool := C.isAlnum c || c = 0x5F

/-- `\b`. -/
def boundary : Pattern := .assert fun before next => before.any C.word != next.any C.word

/-- A class under `re.IGNORECASE`. -/
def anyCase (p : CodePoint → Bool) (c : CodePoint) : Bool := p c || (C.variants c).any p

/-- A string under `re.IGNORECASE`. -/
def lit (s : String) : Pattern := seqs ((Str.ofString s).map fun x => one (C.anyCase (· = x)))

/-- Words with `\s*` between them. -/
def phrase : List String → Pattern
  | [] => .empty
  | [w] => C.lit w
  | w :: ws => seqs [C.lit w, spaces, phrase ws]

/-- Words with `[_ -]?` between them. -/
def compound : List String → Pattern
  | [] => .empty
  | [w] => C.lit w
  | w :: ws => seqs [C.lit w, opt (one (among "_ -")), compound ws]

/-! ## Validators -/

/-- `_digits`. -/
def digits (value : Str) : Str := value.filter C.digit

/-- `int(character)`. -/
def int (c : CodePoint) : Nat := (C.decimal c).elim 0 Fin.val

/-- `text.isdecimal()`. -/
def isDecimal (text : Str) : Bool := !text.isEmpty && text.all C.digit

/-- `len(set(text)) == 1`. -/
def allSame (text : Str) : Bool := text.eraseDups.length = 1

/-- `is_luhn_valid`. -/
def isLuhnValid (value : Str) : Bool :=
  let digits := C.digits value
  if !(13 ≤ digits.length && digits.length ≤ 19) || allSame digits then false
  else
    let parity := digits.length % 2
    let checksum := (digits.zipIdx.map fun (c, index) =>
      let number := C.int c
      if index % 2 = parity then if 9 < number * 2 then number * 2 - 9 else number * 2
      else number).sum
    checksum % 10 = 0

/-- `compact` of `_valid_phone`. -/
def compactPhone (value : Str) : Str :=
  let compact := value.filter fun c => !(space c || among ".()/-" c)
  if Str.ofString "+84" <+: compact then 0x30 :: compact.drop 3
  else if Str.ofString "84" <+: compact then 0x30 :: compact.drop 2
  else compact

/-- `_valid_phone`. -/
def validPhone (value : Str) : Bool :=
  let compact := compactPhone value
  if !C.isDecimal compact || allSame compact then false
  else if compact.length = 10 &&
      (["03", "05", "07", "08", "09"].map Str.ofString).contains (compact.take 2) then true
  else Str.ofString "02" <+: compact && (compact.length = 10 || compact.length = 11)

/-- `_VN_PROVINCE_CODES`. -/
def provinceCodes : List Str :=
  ["001", "002", "004", "006", "008", "010", "011", "012", "014", "015", "017", "019", "020", "022",
    "024", "025", "026", "027", "030", "031", "033", "034", "035", "036", "037", "038", "040", "042",
    "044", "045", "046", "048", "049", "051", "052", "054", "056", "058", "060", "062", "064", "066",
    "067", "068", "070", "072", "074", "075", "077", "079", "080", "082", "083", "084", "086", "087",
    "089", "091", "092", "093", "094", "095", "096"].map Str.ofString

/-- `_valid_cccd`. -/
def validCccd (value : Str) : Bool :=
  let digits := C.digits value
  digits.length = 12 && provinceCodes.contains (digits.take 3)

/-- `_valid_tax_id_checksum`. -/
def validTaxIdChecksum (value : Str) : Bool :=
  let digits := C.digits value
  let digits := if digits.length = 13 then digits.take 10 else digits
  if digits.length ≠ 10 || allSame digits then false
  else
    let weights := [31, 29, 23, 19, 17, 13, 7, 5, 3]
    let expected := 10 - (((digits.take 9).zipWith (fun digit weight => C.int digit * weight)
      weights).sum % 11)
    let expected := if 10 ≤ expected then 0 else expected
    digits.getLast?.any fun digit => C.int digit = expected

/-- `_CODE_WORD`. -/
def codeWord : Pattern :=
  let start := one fun c => letter c || among "_$" c
  seqs [start, star start, star (one C.digit)]

/-- Characters between two quotation marks. -/
def quotedBy (mark : String) : Pattern :=
  seqs [Dlp.lit mark, star (one fun c => !among mark c), Dlp.lit mark]

/-- `_CODE_STRING`. -/
def codeString : Pattern := alts [quotedBy "\"", quotedBy "'", quotedBy "`"]

/-- `_CODE_REFERENCE_RE`. -/
def codeReference : Pattern :=
  alts [
    seqs [C.codeWord, plus (seqs [opt (Dlp.lit "?"), Dlp.lit ".", C.codeWord]),
      alts [seqs [one (among "(["), star dot], star (one (among ")]"))]],
    seqs [C.codeWord,
      alts [seqs [Dlp.lit "(", opt (alts [C.codeWord, codeString]), Dlp.lit ")"],
        seqs [Dlp.lit "[", alts [C.codeWord, codeString], Dlp.lit "]"]],
      star (one (among ")]"))]]

end Characters

/-- The last alternative of `_PLACEHOLDER_RE`: the scanner's own output. -/
def ownPlaceholder : Pattern :=
  seqs [lit "[REDACTED", opt (seqs [lit ":", plus (one fun c => upper c || among "_+" c)]), lit "]"]

/-- `_PLACEHOLDER_RE`. -/
def placeholderRe : Pattern :=
  alts [seqs [lit "$\x7b", star (one fun c => !among "\x7b\x7d" c), lit "\x7d"],
    seqs [lit "\x7b\x7b", star (one fun c => !among "\x7b\x7d" c), lit "\x7d\x7d"],
    seqs [lit "<", plus (one fun c => !among "<>" c), lit ">"],
    atLeast 3 (one (among "*•xX")),
    ownPlaceholder]

/-- `_CODE_KEYWORDS`. -/
def codeKeywords : List Str :=
  ["await", "null", "none", "undefined", "true", "false", "this", "self", "string"].map Str.ofString

namespace Characters

variable (C : Characters)

/-- `_NESTED_OBJECT_RE`. -/
def nestedObject : Pattern :=
  seqs [Dlp.lit "\x7b", spaces, opt (one (among "\"'")), plus (one fun c => C.word c || among "$-" c),
    opt (one (among "\"'")), spaces, Dlp.lit ":"]

/-- `_is_literal_secret`, of a value that is not empty. -/
def isLiteralSecret (value : Str) : Bool :=
  let quoted := value.head?.any (among "\"'")
  let inner := Str.strip (if quoted then value.tail.dropLast else value)
  if placeholderRe.fullmatch inner || codeKeywords.contains (inner.flatMap C.fold) then false
  else if quoted then true
  else !(Str.ofString "<" <+: value || C.nestedObject.matchStart value ||
    C.codeReference.fullmatch value)

/-! ## The rules -/

/-- `_KEY_START`. -/
def keyStart : Pattern := notBehind fun c => C.word c && c ≠ 0x5F

/-- `_KEY_END`. -/
def keyEnd : Pattern :=
  let blanks := star (one (among " \t"))
  seqs [opt (Dlp.lit "\\"), opt (one (among "\"'")), blanks, opt (alts [C.lit "is", C.lit "là"]),
    blanks, alts [Dlp.lit ":=", Dlp.lit "=>", one (among ":=")], blanks]

end Characters

/-- A value of at least so many characters between two quotation marks. -/
def quotedValue (mark : String) (minimum : Nat) : Pattern :=
  seqs [lit mark,
    atLeast minimum (alts [seqs [lit "\\", dot], one fun c => !among (mark ++ "\\\r\n") c]),
    lit mark]

/-- `_assigned_value`. -/
def assignedValue (minimum : Nat) : Pattern :=
  value (alts [quotedValue "\"" minimum, quotedValue "'" minimum,
    atLeast minimum (one fun c => !(space c || among ",;" c))])

/-- `_RegexRule`; a rule without a validator takes every value. -/
structure RegexRule where
  detectorId : String
  findingType : FindingType
  pattern : Pattern
  dataClass : DataClass
  group : GroupName := .value
  validator : Str → Bool := fun _ => true

namespace Characters

variable (C : Characters)

def secretAssignment : RegexRule where
  detectorId := "secret.assignment"
  findingType := .secret
  pattern := seqs [C.keyStart,
    alts [C.lit "password", C.lit "passwd", C.lit "passphrase", C.lit "pwd", C.phrase ["mật", "khẩu"],
      C.compound ["client", "secret"], C.compound ["private", "secret"], C.lit "secret"],
    C.keyEnd, assignedValue 4]
  dataClass := .highlyConfidential
  validator := C.isLiteralSecret

def tokenBearer : RegexRule where
  detectorId := "token.bearer"
  findingType := .bearerToken
  pattern := seqs [C.boundary, C.lit "bearer", spaces, opt (one (among ":=")), plus (one space),
    value (seqs [atLeast 8 (one (C.anyCase fun c => alphanumeric c || among "._~+/-" c)),
      star (Dlp.lit "=")])]
  dataClass := .highlyConfidential

/-- `[A-Za-z0-9_-]`. -/
def tokenCharacter (c : CodePoint) : Bool := alphanumeric c || among "_-" c

def tokenJwt : RegexRule where
  detectorId := "token.jwt"
  findingType := .jwt
  pattern := seqs [notBehind tokenCharacter,
    value (seqs [Dlp.lit "eyJ", atLeast 5 (one tokenCharacter), Dlp.lit ".",
      atLeast 5 (one tokenCharacter), Dlp.lit ".", atLeast 2 (one tokenCharacter)]),
    notNext tokenCharacter]
  dataClass := .highlyConfidential

def keyPrivatePem : RegexRule where
  detectorId := "key.private_pem"
  findingType := .privateKey
  pattern := value (seqs [C.lit "-----BEGIN ",
    .group .keyKind (seqs [opt (alts [C.lit "RSA ", C.lit "EC ", C.lit "OPENSSH "]),
      C.lit "PRIVATE KEY"]),
    C.lit "-----", lazyStar (one fun _ => true), C.lit "-----END ",
    .backref .keyKind fun x c => C.anyCase (· = x) c, C.lit "-----"])
  dataClass := .highlyConfidential

def apiKeyAssignment : RegexRule where
  detectorId := "api_key.assignment"
  findingType := .apiKey
  pattern :=
    let sep := opt (one (among "_ -"))
    seqs [C.keyStart,
      alts [C.compound ["api", "key"], C.lit "x-api-key", C.compound ["access", "token"],
        C.compound ["refresh", "token"], C.compound ["auth", "token"],
        seqs [C.lit "secret", sep, opt (seqs [C.lit "access", sep]), C.lit "key"],
        seqs [C.lit "google", sep, opt (seqs [C.lit "genai", sep]), C.lit "api", sep, C.lit "key"],
        C.compound ["gemini", "api", "key"],
        seqs [alts [C.lit "claude", C.lit "anthropic"], sep,
          alts [C.compound ["api", "key"], C.compound ["auth", "token"]]]],
      C.keyEnd, assignedValue 6]
  dataClass := .highlyConfidential
  validator := C.isLiteralSecret

/-- Only the name of the variable is case-sensitive. -/
def apiKeyEnvToken : RegexRule where
  detectorId := "api_key.env_token"
  findingType := .apiKey
  pattern := seqs [C.keyStart,
    plus (seqs [one upper, star (one fun c => upper c || asciiDigit c), Dlp.lit "_"]),
    Dlp.lit "TOKEN", C.keyEnd, assignedValue 6]
  dataClass := .highlyConfidential
  validator := C.isLiteralSecret

def apiKeyKnownFormat : RegexRule where
  detectorId := "api_key.known_format"
  findingType := .apiKey
  pattern := seqs [notBehind tokenCharacter,
    value (alts [
      seqs [Dlp.lit "AIza", atLeast 30 (one tokenCharacter)],
      seqs [Dlp.lit "AQ.", atLeast 30 (one tokenCharacter)],
      seqs [alts [Dlp.lit "AKIA", Dlp.lit "ASIA"],
        within 16 16 (one fun c => upper c || asciiDigit c)],
      seqs [Dlp.lit "gh", one (among "pousr"), Dlp.lit "_", within 30 255 (one alphanumeric)],
      seqs [Dlp.lit "github_pat_", within 30 255 (one fun c => alphanumeric c || among "_" c)],
      seqs [Dlp.lit "sk-", opt (Dlp.lit "proj-"), atLeast 20 (one tokenCharacter)],
      seqs [Dlp.lit "xox", one (among "baprs"), Dlp.lit "-",
        atLeast 10 (one fun c => alphanumeric c || among "-" c)],
      seqs [Dlp.lit "sk_live_", atLeast 16 (one alphanumeric)]]),
    notNext tokenCharacter]
  dataClass := .highlyConfidential

def piiEmail : RegexRule where
  detectorId := "pii.email"
  findingType := .email
  pattern :=
    let labelCharacter := one fun c => alphanumeric c || among "-" c
    let domainCharacter := one fun c => C.word c || among "-" c
    seqs [notBehind fun c => C.word c || among ".+-" c,
      value (seqs [plus (one fun c => alphanumeric c || among ".!#$%&'*+/=?^_`\x7b|\x7d~-" c),
        Dlp.lit "@",
        plus (seqs [one alphanumeric,
          opt (seqs [within 0 61 labelCharacter, one alphanumeric]), Dlp.lit "."]),
        within 2 63 (one letter)]),
      .notAhead (alts [domainCharacter, seqs [plus (Dlp.lit "."), domainCharacter]])]
  dataClass := .confidential

def piiVnPhone : RegexRule where
  detectorId := "pii.vn_phone"
  findingType := .phone
  pattern := seqs [notBehind fun c => C.digit c || c = 0x2B,
    value (seqs [alts [seqs [opt (Dlp.lit "+"), Dlp.lit "84"], Dlp.lit "0"],
      within 9 10 (seqs [opt (one fun c => space c || among ".()/-" c), one C.digit])]),
    notNext C.digit]
  dataClass := .confidential
  validator := C.validPhone

def paymentCardLuhn : RegexRule where
  detectorId := "payment_card.luhn"
  findingType := .paymentCard
  pattern := seqs [notBehind C.digit,
    value (seqs [one C.digit, within 12 18 (seqs [opt (one (among " -")), one C.digit])]),
    notNext C.digit]
  dataClass := .highlyConfidential
  validator := C.isLuhnValid

def vnCccdContext : RegexRule where
  detectorId := "vn.cccd.context"
  findingType := .cccd
  pattern := seqs [C.boundary,
    alts [C.lit "cccd", seqs [C.phrase ["căn", "cước"],
        opt (seqs [spaces, C.phrase ["công", "dân"]])],
      seqs [C.lit "citizen", plus (one space), C.lit "id"]],
    spaces, opt (alts [C.lit "số", C.lit "number", seqs [C.lit "no", opt (Dlp.lit ".")], Dlp.lit "#"]),
    spaces, opt (one (among ":=.-")), spaces,
    value (seqs [one C.digit, within 11 11 (seqs [opt (one (among " .-")), one C.digit])]),
    notNext C.digit]
  dataClass := .highlyConfidential
  validator value := (C.digits value).length = 12

def vnCccdStructure : RegexRule where
  detectorId := "vn.cccd.structure"
  findingType := .cccd
  pattern := seqs [notBehind C.digit, value (within 12 12 (one C.digit)), notNext C.digit]
  dataClass := .highlyConfidential
  validator := C.validCccd

/-- `\d{10}(?:-\d{3})?`. -/
def taxId : Pattern :=
  value (seqs [within 10 10 (one C.digit),
    opt (seqs [Dlp.lit "-", within 3 3 (one C.digit)])])

def vnTaxIdContext : RegexRule where
  detectorId := "vn.tax_id.context"
  findingType := .taxId
  pattern := seqs [C.boundary,
    alts [C.phrase ["mã", "số", "thuế"], C.phrase ["ma", "so", "thue"], C.lit "mst",
      seqs [C.lit "tax", opt (C.lit "payer"), opt (one (among "_ -")), C.lit "id"]],
    spaces, opt (one (among ":=#.-")), spaces, C.taxId, notNext C.digit]
  dataClass := .highlyConfidential

def vnTaxIdChecksum : RegexRule where
  detectorId := "vn.tax_id.checksum"
  findingType := .taxId
  pattern := seqs [notBehind C.digit, C.taxId, notNext C.digit]
  dataClass := .highlyConfidential
  validator := C.validTaxIdChecksum

/-- `_REGEX_RULES`. -/
def regexRules : List RegexRule :=
  [C.secretAssignment, C.tokenBearer, tokenJwt, C.keyPrivatePem, C.apiKeyAssignment,
    C.apiKeyEnvToken, apiKeyKnownFormat, C.piiEmail, C.piiVnPhone, C.paymentCardLuhn,
    C.vnCccdContext, C.vnCccdStructure, C.vnTaxIdContext, C.vnTaxIdChecksum]

/-! ## Health data -/

/-- `_HEALTH_FIELD_RE`. -/
def healthField : Pattern :=
  let sep := opt (one (among "_ "))
  seqs [C.boundary,
    alts [C.phrase ["chẩn", "đoán"], C.phrase ["chan", "doan"], C.phrase ["bệnh", "án"],
      C.phrase ["benh", "an"], C.phrase ["kết", "quả", "xét", "nghiệm"],
      C.phrase ["ket", "qua", "xet", "nghiem"], C.phrase ["đơn", "thuốc"],
      C.phrase ["don", "thuoc"], C.lit "diagnosis", seqs [C.lit "medical", sep, C.lit "record"],
      seqs [C.lit "lab", sep, C.lit "result"], C.lit "prescription",
      seqs [C.lit "blood", sep, C.lit "type"]],
    spaces, one (among ":="), spaces, value (within 2 180 (one fun c => !among "\r\n;" c))]

/-- `_HEALTH_TERM_RE`. -/
def healthTerm : Pattern :=
  seqs [C.boundary,
    alts [C.lit "hiv", C.lit "aids", C.phrase ["ung", "thư"], C.phrase ["ung", "thu"],
      C.phrase ["tiểu", "đường"], C.phrase ["tieu", "duong"], C.phrase ["cao", "huyết", "áp"],
      C.phrase ["cao", "huyet", "ap"], C.phrase ["huyết", "áp"], C.phrase ["huyet", "ap"],
      C.phrase ["đường", "huyết"], C.phrase ["duong", "huyet"], C.phrase ["thai", "kỳ"],
      C.phrase ["thai", "ky"], C.phrase ["dị", "ứng"], C.phrase ["di", "ung"],
      C.phrase ["hen", "suyễn"], C.phrase ["hen", "suyen"], C.phrase ["viêm", "gan"],
      C.phrase ["viem", "gan"], C.phrase ["lao", "phổi"], C.phrase ["lao", "phoi"],
      C.phrase ["trầm", "cảm"], C.phrase ["tram", "cam"], C.phrase ["rối", "loạn", "lo", "âu"],
      C.phrase ["roi", "loan", "lo", "au"], C.lit "diabetes", C.lit "cancer", C.lit "hypertension",
      C.phrase ["blood", "pressure"], C.phrase ["blood", "sugar"],
      seqs [C.lit "pregnan", alts [C.lit "t", C.lit "cy"]],
      seqs [C.lit "allerg", alts [C.lit "y", C.lit "ic"]], C.lit "asthma", C.lit "hepatitis",
      C.lit "tuberculosis", C.lit "depression", C.phrase ["anxiety", "disorder"],
      seqs [C.lit "icd", opt (one (among "- ")), C.lit "10", spaces, opt (one (among ":#")), spaces,
        one (C.anyCase (range 'a' 'z')), within 2 2 (one C.digit),
        opt (seqs [Dlp.lit ".", within 1 4 (one C.digit)])]],
    C.boundary]

/-- `_PERSONAL_HEALTH_CONTEXT_RE`. -/
def personalHealthContext : Pattern :=
  let gap := plus (one space)
  seqs [C.boundary,
    alts [C.lit "tôi", C.lit "toi", C.lit "mình", C.lit "minh", C.lit "em", C.lit "anh", C.lit "chị",
      C.lit "chi", C.phrase ["mẹ", "tôi"], C.phrase ["me", "toi"], C.phrase ["bố", "tôi"],
      C.phrase ["bo", "toi"], C.phrase ["bệnh", "nhân"], C.phrase ["benh", "nhan"],
      C.phrase ["người", "bệnh"], C.phrase ["nguoi", "benh"], C.phrase ["hồ", "sơ", "của"],
      C.phrase ["ho", "so", "cua"], C.lit "my",
      seqs [C.lit "i", gap, alts [C.lit "have", C.lit "am", C.lit "was"]], C.lit "patient",
      seqs [C.lit "the", gap, C.lit "patient"], seqs [C.lit "medical", gap, C.lit "record"],
      seqs [C.lit "diagnosed", gap, C.lit "with"], seqs [C.lit "tested", gap, C.lit "positive"],
      C.lit "prescribed"],
    C.boundary]

end Characters

end Scap.Dlp
