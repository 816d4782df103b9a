import Mathlib.Data.List.Sort
import VllmVerifier.CustomerService.Catalog
import VllmVerifier.CustomerService.Fixtures
import VllmVerifier.Python.Dict
import VllmVerifier.Python.Regex
import VllmVerifier.Python.Unicode

/-!
`slots.py`: what a text says about the slots. Each pattern of the source is a
regular expression of `Python.Regex`, or a list of literals where it is no more.
-/

set_option autoImplicit false

namespace VllmVerifier.CustomerService

open Python

variable [Unicode]

/-! ## Requests -/

def prefixes : List (Slot × Str) := [(.reason, lit "사유"), (.address, lit "주소"),
  (.instructions, lit "요청"), (.name, lit "이름"), (.message, lit "문구"), (.query, lit "검색어")]

/-- The alternatives of `TASK_CUE`. -/
def taskCues : List Str := [lit "연결", lit "조회", lit "검색", lit "추천", lit "언제", lit "어디",
  lit "재고", lit "이벤트", lit "보여", lit "알려", lit "바꾸", lit "변경", lit "취소", lit "환불",
  lit "반품", lit "교환", lit "로그인", lit "싶어", lit "싶어요", lit "해줘"]

/-- The alternatives of the second pattern of `is_request`. -/
def questionCues : List Str := [lit "?", lit "？", lit "뭐", lit "무엇", lit "어떻게", lit "얼마",
  lit "몇시", lit "몇 시", lit "혹시", lit "인가요", lit "나요", lit "까요", lit "있어", lit "없어",
  lit "돼요", lit "되나요", lit "가능해", lit "궁금", lit "하고 싶", lit "해주세요"]

/-- `[\s.!?。]` of a pattern. -/
def punctuation (code : Nat) : Bool := Str.isspace code || decide (code ∈ lit ".!?。")

def normalize (text : Str) : Str := Unicode.lower (text.filter fun code => !punctuation code)

def isRequest (text : Str) : Bool :=
  taskCues.any (Str.contains · text) || questionCues.any (Str.contains · text) ||
    decide (normalize text ∈ intents.map fun intent => normalize intent.label)

/-! ## Patterns -/

namespace Pattern

def digits (count : Nat) : Regex := .greedy count (some count) Unicode.isdecimal

/-- `\s*`. -/
def spaces : Regex := .greedy 0 none Str.isspace

def ofClass (members : Str) (code : Nat) : Bool := decide (code ∈ members)

def upperLetter (code : Nat) : Bool := decide (65 ≤ code ∧ code ≤ 90)

def lowerLetter (code : Nat) : Bool := decide (97 ≤ code ∧ code ≤ 122)

def asciiDigit (code : Nat) : Bool := decide (48 ≤ code ∧ code ≤ 57)

/-- A literal of capital letters and digits under `re.I`. -/
def ignoreCase (text : Str) : Regex :=
  .all (text.map fun code => .one fun found => found == code || upperLetter code && found == code + 32)

/-- `[- ]`. -/
def separator (code : Nat) : Bool := ofClass (lit "- ") code

/-- `\bORD[- ]?(\d{4})\b` under `re.I`. -/
def orderId : Regex := .all [.boundary Unicode.isWord, ignoreCase (lit "ORD"),
  .greedy 0 (some 1) separator, .group (digits 4), .boundary Unicode.isWord]

/-- `\s*(\d{4})\s*`. -/
def bareOrderId : Regex := .all [spaces, .group (digits 4), spaces]

/-- `\b(?:WELCOME10|FALL20)\b` under `re.I`. -/
def coupon : Regex := .all [.boundary Unicode.isWord,
  .alt (ignoreCase (lit "WELCOME10")) (ignoreCase (lit "FALL20")), .boundary Unicode.isWord]

/-- `([1-9]\d?)`. -/
def count : Regex := .group (.seq (.one fun code => decide (49 ≤ code ∧ code ≤ 57))
  (.greedy 0 (some 1) Unicode.isdecimal))

/-- `(?<!\d)([1-9]\d?)\s*개`. -/
def quantity : Regex := .all [.notAfter Unicode.isdecimal, count, spaces, .literal (lit "개")]

/-- `\s*([1-9]\d?)\s*`. -/
def bareQuantity : Regex := .all [spaces, count, spaces]

/-- `\b\d{4}-\d{2}-\d{2}\b`. -/
def date : Regex := .all [.boundary Unicode.isWord, digits 4, .literal (lit "-"), digits 2,
  .literal (lit "-"), digits 2, .boundary Unicode.isWord]

/-- `[A-Za-z0-9._%+-]+@[A-Za-z0-9.-]+\.[A-Za-z]{2,}`. -/
def email : Regex :=
  let letter := fun code => upperLetter code || lowerLetter code
  .all [.greedy 1 none fun code => letter code || asciiDigit code || ofClass (lit "._%+-") code,
    .literal (lit "@"),
    .greedy 1 none fun code => letter code || asciiDigit code || ofClass (lit ".-") code,
    .literal (lit "."), .greedy 2 none letter]

/-- `\b010-\d{4}-\d{4}\b`. -/
def phone : Regex := .all [.boundary Unicode.isWord, .literal (lit "010-"), digits 4,
  .literal (lit "-"), digits 4, .boundary Unicode.isWord]

/-- `.` of a pattern. -/
def anyCode (code : Nat) : Bool := code != ord '\n'

/-- `[:：]` of a pattern. -/
def colon : Regex := .one (ofClass (lit ":："))

/-- The prefix of a slot with `\s*[:：]\s*(.+)` after it. -/
def prefixed (start : Str) : Regex :=
  .all [.literal start, spaces, colon, spaces, .group (.greedy 1 none anyCode)]

/-- `(.+?)\s*(?:찾아|검색해|추천해)`. -/
def query : Regex := .all [.group (.lazy 1 anyCode), spaces,
  .oneOf [lit "찾아", lit "검색해", lit "추천해"]]

/-- `^(?:혹시|그럼|저는|나는)\s*`. -/
def filler : Regex := .all [.oneOf [lit "혹시", lit "그럼", lit "저는", lit "나는"], spaces]

/-- `(?:ORD[- ]?)?[0-9-]+` under `re.I`. -/
def anyOrderId : Regex := .all [
  .optional (.seq (ignoreCase (lit "ORD")) (.greedy 0 (some 1) separator)),
  .greedy 1 none fun code => asciiDigit code || code == ord '-']

/-- `-?\d+\s*(?:개)?`. -/
def anyQuantity : Regex := .all [.greedy 0 (some 1) (· == ord '-'),
  .greedy 1 none Unicode.isdecimal, spaces, .optional (.literal (lit "개"))]

/-- `\d{4}[/.-]\d{1,2}[/.-]\d{1,2}`, with the classes in another order. -/
def anyDate : Regex :=
  let dash := Regex.one (ofClass (lit "-/."))
  let short := Regex.greedy 1 (some 2) Unicode.isdecimal
  .all [digits 4, dash, short, dash, short]

/-- `\S*@\S*`. -/
def anyEmail : Regex :=
  let visible := Regex.greedy 0 none fun code => !Str.isspace code
  .all [visible, .literal (lit "@"), visible]

/-- `[+\d][\d -]{5,}`. -/
def anyPhone : Regex := .seq (.one fun code => code == ord '+' || Unicode.isdecimal code)
  (.greedy 5 none fun code => Unicode.isdecimal code || separator code)

end Pattern

/-- The patterns of `invalid_slot_attempt`. -/
def attemptPattern : Slot → Option Regex
  | .orderId => some Pattern.anyOrderId
  | .quantity => some Pattern.anyQuantity
  | .date => some Pattern.anyDate
  | .email => some Pattern.anyEmail
  | .phone => some Pattern.anyPhone
  | _ => none

def invalidSlotAttempt (text : Str) (expected : Slot) : Bool :=
  !isRequest text &&
    (attemptPattern expected).any fun pattern => (Regex.fullmatch pattern (Str.strip text)).isSome

/-! ## Values -/

/-- The decimal digits of ASCII, as `date.fromisoformat` reads them. -/
def asciiNumber (digits : Str) : Option Nat :=
  if digits.all Pattern.asciiDigit then
    some (digits.foldl (fun value code => value * 10 + (code - 48)) 0)
  else none

def leapYear (year : Nat) : Bool := year % 4 == 0 && (year % 100 != 0 || year % 400 == 0)

def daysInMonth (year month : Nat) : Nat :=
  if month = 2 then if leapYear year then 29 else 28
  else if month = 4 ∨ month = 6 ∨ month = 9 ∨ month = 11 then 30
  else 31

/-- `datetime.date` accepts these. -/
def ValidDate (year month day : Nat) : Prop :=
  1 ≤ year ∧ 1 ≤ month ∧ month ≤ 12 ∧ 1 ≤ day ∧ day ≤ daysInMonth year month

instance (year month day : Nat) : Decidable (ValidDate year month day) :=
  inferInstanceAs (Decidable (_ ∧ _))

/-- `date.fromisoformat` of a text of the form `dddd-dd-dd`, where it accepts it. -/
def fromisoformat (text : Str) : Option (Nat × Nat × Nat) := do
  let year ← asciiNumber (text.take 4)
  let month ← asciiNumber ((text.drop 5).take 2)
  let day ← asciiNumber ((text.drop 8).take 2)
  if ValidDate year month day then some (year, month, day) else none

/-- `text.find(part)`, where it is found. -/
def find? (part text : Str) : Option Nat := (Str.partition part text).map fun found => found.1.length

/-- The names under which a product is found. -/
def Product.names (product : Product) : List Str :=
  product.name :: product.id :: product.aliases.filter fun other => 1 < other.length

/-- Where a product is first mentioned, with its name. -/
def mention (text : Str) (product : Product) : Option (Nat × Str) :=
  let places := product.names.filterMap fun name =>
    find? (Unicode.lower name) (Unicode.lower text)
  places.min?.map fun place => (place, product.name)

/-- The order of tuples. -/
def MentionLe (left right : Nat × Str) : Prop :=
  left.1 < right.1 ∨ left.1 = right.1 ∧ left.2 ≤ right.2

instance : DecidableRel MentionLe := fun _ _ => inferInstanceAs (Decidable (_ ∨ _))

def mentions (text : Str) : List (Nat × Str) :=
  (products.filterMap (mention text)).insertionSort MentionLe

/-- The first of these names that is in the text, as the value of a slot. -/
def firstNamed (slot : Slot) (names : List Str) (text : Str) : List (Slot × Str) :=
  ((names.find? fun name => Str.contains name text).map fun name => (slot, name)).toList

/-- Group 1 of a match, as the value of a slot. -/
def grouped (slot : Slot) (found : Option Regex.Found) : List (Slot × Str) :=
  ((found.bind Regex.Found.group).map fun value => (slot, value)).toList

def whole (slot : Slot) (found : Option Regex.Found) : List (Slot × Str) :=
  (found.map fun candidate => (slot, candidate.text)).toList

/-! ## Extraction -/

/-- A search, and where it finds nothing a full match if the slot is expected. -/
def searchOr (pattern bare : Regex) (slot : Slot) (expected : Option Slot) (text : Str) :
    Option Regex.Found :=
  match Regex.search pattern text with
  | some candidate => some candidate
  | none => if expected = some slot then Regex.fullmatch bare text else none

def orderIdIn (text : Str) (expected : Option Slot) : List (Slot × Str) :=
  (grouped .orderId (searchOr Pattern.orderId Pattern.bareOrderId .orderId expected text)).map
    fun entry => (entry.1, lit "ORD-" ++ entry.2)

def productsIn (text : Str) (expected : Option Slot) : List (Slot × Str) :=
  match mentions text with
  | [] => []
  | [only] =>
      if expected = some .otherProduct then [(.otherProduct, only.2)] else [(.product, only.2)]
  | first :: second :: _ => [(.product, first.2), (.otherProduct, second.2)]

def couponIn (text : Str) : List (Slot × Str) :=
  (whole .coupon (Regex.search Pattern.coupon text)).map fun entry =>
    (entry.1, Unicode.upper entry.2)

def regions : List Str := [lit "서울", lit "부산", lit "제주", lit "대전", lit "대구", lit "인천",
  lit "해외"]

/-- The slots whose values are words of the text. -/
def namedValues : List (Slot × List Str) := [
  (.device, [lit "아이폰", lit "갤럭시", lit "노트북", lit "아이패드", lit "안드로이드"]),
  (.paymentMethod, [lit "카드", lit "계좌이체", lit "간편결제", lit "무통장"]),
  (.channel, [lit "채팅", lit "전화"]),
  (.option, [lit "화이트", lit "블랙", lit "베이지", lit "그린"])]

def sizeIn (text : Str) (expected : Option Slot) : List (Slot × Str) :=
  let size := Unicode.upper (Str.strip text)
  if expected = some .option ∧ size ∈ [lit "S", lit "M", lit "L"] then [(.option, size)] else []

def quantityIn (text : Str) (expected : Option Slot) : List (Slot × Str) :=
  grouped .quantity (searchOr Pattern.quantity Pattern.bareQuantity .quantity expected text)

def dateIn (text : Str) : List (Slot × Str) :=
  (whole .date (Regex.search Pattern.date text)).filter fun entry => (fromisoformat entry.2).isSome

def notificationIn (text : Str) : List (Slot × Str) :=
  if Str.contains (lit "끄") text || Str.contains (lit "해제") text then
    [(.notification, lit "끄기")]
  else if Str.contains (lit "켜") text || Str.contains (lit "켜기") text then
    [(.notification, lit "켜기")]
  else []

def prefixedIn (text : Str) (entry : Slot × Str) : List (Slot × Str) :=
  (grouped entry.1 (Regex.search (Pattern.prefixed entry.2) text)).map fun found =>
    (found.1, (Str.strip found.2).take 200)

/-- `re.sub(filler, "", text)`; the pattern is anchored at the start. -/
def withoutFiller (text : Str) : Str :=
  match Regex.matchStart Pattern.filler text with
  | some found => found.rest
  | none => text

def queryIn (text : Str) : List (Slot × Str) :=
  ((grouped .query (Regex.search Pattern.query text)).map fun entry =>
    (entry.1, Str.strip (withoutFiller entry.2))).filterMap fun entry =>
      if entry.2 ∈ [lit "상품", lit "제품", lit "다른 상품", lit "다른 제품"] then none
      else some (entry.1, entry.2.take 100)

/-- The answers that are not a value of a free-text slot. -/
def plainAnswers : List Str := [lit "네", lit "아니", lit "아니요", lit "몰라", lit "모르겠어"]

/-- The last block of `extract`: the whole text for a free-text slot. -/
def freeText (text : Str) (expected : Option Slot) (result : Dict Slot Str) : List (Slot × Str) :=
  match expected with
  | none => []
  | some slot =>
      if slot ∈ prefixes.map Prod.fst ∧ (result.get? slot).isNone ∧ !isRequest text ∧
          1 ≤ (Str.strip text).length ∧ (Str.strip text).length ≤ 100 ∧
            normalize text ∉ plainAnswers then
        [(slot, Str.strip text)]
      else []

/-- What `extract` assigns before its last block, in order. -/
def assignments (text : Str) (expected : Option Slot) : List (Slot × Str) :=
  orderIdIn text expected ++ productsIn text expected ++
    firstNamed .event (events.map Event.name) text ++ couponIn text ++
    firstNamed .region regions text ++
    (namedValues.flatMap fun entry => firstNamed entry.1 entry.2 text) ++ sizeIn text expected ++
    quantityIn text expected ++ dateIn text ++ whole .email (Regex.search Pattern.email text) ++
    whole .phone (Regex.search Pattern.phone text) ++ notificationIn text ++
    prefixes.flatMap (prefixedIn text) ++ queryIn text

def extract (text : Str) (expected : Option Slot) : Dict Slot Str :=
  let result := Dict.ofPairs (assignments text expected)
  result.update (freeText text expected result)

def isSlotReply (text : Str) (expected : Slot) (values : Dict Slot Str) : Bool :=
  if (values.get? expected).isNone then false
  else
    match prefixes.lookup expected with
    | some start =>
        if (Regex.matchStart (.all [.literal start, Pattern.spaces, Pattern.colon]) text).isSome then
          true
        else !isRequest text
    | none => !isRequest text

end VllmVerifier.CustomerService
