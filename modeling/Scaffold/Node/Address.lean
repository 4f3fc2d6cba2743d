import Scaffold.Text.Word
/-!
Texts that look like an address: of a page, by its scheme or first label, or of
a mailbox.
-/
namespace Scaffold.Address

def pagePrefixes : List String :=
  ["http://", "https://", "ftp://", "file://", "//", "www.", "ftp."]

/-- Whether a text is the address of a page: it begins as one and has no
space. -/
def isPage (s : String) : Bool :=
  pagePrefixes.any (fun p => p.toList.isPrefixOf s.toList) &&
    !s.toList.contains ' '

def isMailChar (c : Char) : Bool :=
  Text.isWordChar c || c == '.' || c == '%' || c == '+' || c == '-'

def isHostChar (c : Char) : Bool := Text.isWordChar c || c == '-'

/-- Whether characters are a host with at least two labels: something, a dot,
and something. -/
def isHost (cs : List Char) : Bool :=
  match cs.takeWhile isHostChar, cs.dropWhile isHostChar with
  | _ :: _, '.' :: c :: rest =>
    (c :: rest).all fun c => isHostChar c || c == '.'
  | _, _ => false

/-- Whether a text is the address of a mailbox. -/
def isMailbox (s : String) : Bool :=
  match s.toList.takeWhile isMailChar, s.toList.dropWhile isMailChar with
  | _ :: _, '@' :: host => isHost host
  | _, _ => false

/-- Whether some word is directly in front of a colon. -/
def namesScheme : List Char → Bool
  | c :: ':' :: rest => Text.isWordChar c || namesScheme (':' :: rest)
  | _ :: rest => namesScheme rest
  | [] => false

/-- The target of a link with the given text, if the text is an address. -/
def target? (s : String) : Option String :=
  if isPage s then
    some (if namesScheme s.toList || "//".toList.isPrefixOf s.toList then s
      else "http://" ++ s)
  else if isMailbox s then some ("mailto:" ++ s)
  else none

end Scaffold.Address
