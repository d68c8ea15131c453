import Wdb2ts.Miutil

/-!
# Providers

A provider is named by a provider name and, when it has one, a place name.  The
priority list of a request is a list of such items.
-/

namespace Wdb2ts

/-- A provider with an optional place name. -/
structure ProviderItem where
  provider : Bytes
  placename : Bytes
  deriving DecidableEq, Repr

/-- A priority list. -/
abbrev ProviderList := List ProviderItem

namespace ProviderItem

/-- `ProviderItem()`. -/
instance : Inhabited ProviderItem := ⟨⟨[], []⟩⟩

/-- `ProviderItem::providerWithPlacename`. -/
def providerWithPlacename (item : ProviderItem) : Bytes :=
  if item.placename.isEmpty then item.provider
  else item.provider ++ Bytes.str " [" ++ item.placename ++ Bytes.str "]"

/-- `ProviderItem::decode`. -/
def decode (providerWithPlacename : Bytes) : ProviderItem :=
  match findByte providerWithPlacename (Bytes.chr '[') with
  | none => ⟨providerWithPlacename, []⟩
  | some i =>
      let provider := trim (providerWithPlacename.take i)
      let rest := providerWithPlacename.drop (i + 1)
      match findByte rest (Bytes.chr ']') with
      | none => ⟨provider, []⟩
      | some j => ⟨provider, trim (rest.take j)⟩

end ProviderItem

namespace ProviderList

/-- Strip a pair of single quotes around a place name. -/
def unquote (placename : Bytes) : Bytes :=
  if 2 ≤ placename.length ∧ placename.head? = some (Bytes.chr '\'') ∧
      placename.getLast? = some (Bytes.chr '\'') then
    miutil.trimstr ((placename.drop 1).take (placename.length - 2)) miutil.blanks
  else placename

/-- The function `decode_`, without the provider name it also returns. -/
def decode_ (toDecode : Bytes) (toDecodeMayBeList : Bool) : ProviderList :=
  match findByte toDecode (Bytes.chr '[') with
  | none => [⟨toDecode, []⟩]
  | some i =>
      let provider := miutil.trimstr (toDecode.take i) miutil.blanks
      if provider.isEmpty then []
      else
        let rest := toDecode.drop (i + 1)
        match findByte rest (Bytes.chr ']') with
        | none => []
        | some j =>
            let placename := miutil.trimstr (rest.take j) miutil.blanks
            let items :=
              if toDecodeMayBeList then
                let names := (miutil.splitstr placename (Bytes.chr ',') (Bytes.chr '\'')).map
                  fun name => miutil.trimstr name miutil.blanks
                (names.filter fun name => !name.isEmpty).map fun name => ⟨provider, unquote name⟩
              else if (unquote placename).isEmpty then []
              else [⟨provider, unquote placename⟩]
            if items.isEmpty then [⟨provider, []⟩] else items

/-- `ProviderList::decodeItem`. -/
def decodeItem (toDecode : Bytes) : ProviderItem :=
  ((decode_ toDecode false).head?).getD default

/-- `ProviderList::findProvider`: the position of the first item with the name, or the
end position. -/
def findProvider (list : ProviderList) (providerWithPlacename : Bytes) : ℕ :=
  list.findIdx fun item => item.providerWithPlacename = providerWithPlacename

/-- `ProviderList::findProviderWithoutPlacename`: the position of the first item with
the provider name, or the end position. -/
def findProviderWithoutPlacename (list : ProviderList) (provider : Bytes) : ℕ :=
  list.findIdx fun item => item.provider = (ProviderItem.decode provider).provider

end ProviderList

end Wdb2ts
