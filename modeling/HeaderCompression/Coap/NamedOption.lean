namespace HeaderCompression

inductive NamedOption where
  | ifMatch
  | uriHost
  | etag
  | ifNoneMatch
  | observe
  | uriPort
  | locationPath
  | uriPath
  | contentFormat
  | maxAge
  | uriQuery
  | accept
  | locationQuery
  | block2
  | block1
  | size2
  | proxyUri
  | proxyScheme
  | size1
  | noResponse
  deriving DecidableEq, Repr

namespace NamedOption

def all : List NamedOption :=
  [.ifMatch, .uriHost, .etag, .ifNoneMatch, .observe, .uriPort, .locationPath, .uriPath,
    .contentFormat, .maxAge, .uriQuery, .accept, .locationQuery, .block2, .block1, .size2,
    .proxyUri, .proxyScheme, .size1, .noResponse]

def number : NamedOption → UInt16
  | ifMatch => 1
  | uriHost => 3
  | etag => 4
  | ifNoneMatch => 5
  | observe => 6
  | uriPort => 7
  | locationPath => 8
  | uriPath => 11
  | contentFormat => 12
  | maxAge => 14
  | uriQuery => 15
  | accept => 17
  | locationQuery => 20
  | block2 => 23
  | block1 => 27
  | size2 => 28
  | proxyUri => 35
  | proxyScheme => 39
  | size1 => 60
  | noResponse => 258

def ofNumber? (number : UInt16) : Option NamedOption :=
  all.find? (·.number == number)

def name : NamedOption → String
  | ifMatch => "IF_MATCH"
  | uriHost => "URI_HOST"
  | etag => "ETAG"
  | ifNoneMatch => "IF_NONE_MATCH"
  | observe => "OBSERVE"
  | uriPort => "URI_PORT"
  | locationPath => "LOCATION_PATH"
  | uriPath => "URI_PATH"
  | contentFormat => "CONTENT_FORMAT"
  | maxAge => "MAX_AGE"
  | uriQuery => "URI_QUERY"
  | accept => "ACCEPT"
  | locationQuery => "LOCATION_QUERY"
  | block2 => "BLOCK2"
  | block1 => "BLOCK1"
  | size2 => "SIZE2"
  | proxyUri => "PROXY_URI"
  | proxyScheme => "PROXY_SCHEME"
  | size1 => "SIZE1"
  | noResponse => "NO_RESPONSE"

theorem mem_all (o : NamedOption) : o ∈ all := by
  cases o <;> decide

theorem ofNumber?_number (o : NamedOption) : ofNumber? o.number = some o := by
  cases o <;> rfl

theorem number_of_ofNumber? {n : UInt16} {o : NamedOption} (h : ofNumber? n = some o) :
    o.number = n := by
  have := List.find?_some h
  exact eq_of_beq this

end NamedOption

end HeaderCompression
