set_option autoImplicit false

/-! # References to resources

The name of a namespace must have the form of a reference to a resource. The form is that
of a URI with or without its scheme; which resource it leads to does not matter.
-/

namespace OscalValidation.Xml.Uri

def isHex (c : Char) : Bool :=
  c.isDigit || ('a' ≤ c && c ≤ 'f') || ('A' ≤ c && c ≤ 'F')

/-- Characters of a part besides escapes. -/
def isPlain (c : Char) : Bool :=
  c.isAlphanum || "-._~!$&'()*+,;=".toList.contains c

/-- The characters are plain, of `extra`, or escapes of two hexadecimal digits. -/
def allPlain (extra : List Char) : List Char → Bool
  | [] => true
  | '%' :: a :: b :: rest => isHex a && isHex b && allPlain extra rest
  | c :: rest => (isPlain c || extra.contains c) && allPlain extra rest

/-- What stands before the first `mark`, and what stands after it if it occurs. -/
def cut (mark : Char) (cs : List Char) : List Char × Option (List Char) :=
  match cs.dropWhile (· != mark) with
  | [] => (cs, none)
  | _ :: rest => (cs.takeWhile (· != mark), some rest)

/-- A host with an optional user and port. -/
def isAuthority (cs : List Char) : Bool :=
  let hostAndPort := match cut '@' cs with
    | (user, some rest) => if allPlain [':'] user then rest else ['%']
    | (_, none) => cs
  let portOk (cs : List Char) : Bool :=
    match cs with
    | [] => true
    | ':' :: digits => !digits.isEmpty && digits.all Char.isDigit
    | _ => false
  match hostAndPort with
  | '[' :: rest =>
      match cut ']' rest with
      | (_, some after) => portOk after
      | _ => false
  | cs =>
      match cut ':' cs with
      | (host, some port) => allPlain [] host && portOk (':' :: port)
      | (host, none) => allPlain [] host

/-- What may follow a scheme, or stand without one if `colonFirst` is refused in the first
segment. -/
def isHierarchy (colonFirst : Bool) (cs : List Char) : Bool :=
  match cs with
  | '/' :: '/' :: rest =>
      isAuthority (rest.takeWhile (· != '/')) &&
        allPlain [':', '@', '/'] (rest.dropWhile (· != '/'))
  | _ =>
      allPlain [':', '@', '/'] cs &&
        (colonFirst || !(cs.takeWhile (· != '/')).contains ':')

def isScheme : List Char → Bool
  | [] => false
  | c :: rest => c.isAlpha && rest.all fun c => c.isAlphanum || c == '+' || c == '-' || c == '.'

/-- **The text has the form of a reference.** -/
def isReference (s : String) : Bool :=
  let (beforeFragment, fragment) := cut '#' s.toList
  let (beforeQuery, query) := cut '?' beforeFragment
  let tailOk := (fragment.getD []).all (fun c => c != '#') &&
    allPlain [':', '@', '/', '?', '[', ']'] (fragment.getD []) &&
    allPlain [':', '@', '/', '?'] (query.getD [])
  tailOk && match cut ':' beforeQuery with
    | (scheme, some rest) =>
        (isScheme scheme && isHierarchy true rest) || isHierarchy false beforeQuery
    | (_, none) => isHierarchy false beforeQuery

end OscalValidation.Xml.Uri
