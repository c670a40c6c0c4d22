/- TheNews/UserDefault/UserDefaultManager
   models: UserDefault/UserDefaultManager.swift, Helpers/CurrentURL.swift
   digest: The saved source list under one key of UserDefaults, with its defaults
   for absent keys. -/

import Mathlib.Logic.Function.Basic

set_option autoImplicit false
set_option relaxedAutoImplicit false

namespace TheNews.UserDefault

def getBankiURlString : String := "https://www.banki.ru/xml/news.rss"

def getFinamURlString : String := "https://www.finam.ru/net/analysis/conews/rsspoint"

/-- A Swift dictionary [String: [String]]. -/
abbrev Dictionary := String → Option (List String)

/-- A property list value, as far as the cast to [String: [String]] looks. -/
inductive StoredValue where
  | dictionary (d : Dictionary)
  | other

/-- `value as? [String: [String]]`. -/
def StoredValue.asDictionary : StoredValue → Option Dictionary
  | .dictionary d => some d
  | .other => none

abbrev UserDefaults := String → Option StoredValue

namespace UserDefaults

def value (userDefault : UserDefaults) (key : String) : Option StoredValue := userDefault key

def set (userDefault : UserDefaults) (value : StoredValue) (key : String) : UserDefaults :=
  Function.update userDefault key (some value)

def removeObject (userDefault : UserDefaults) (key : String) : UserDefaults :=
  Function.update userDefault key none

end UserDefaults

namespace UserDefaultManager

def sourceTitleKey : String := "sourceTitle"
def sourceURLKey : String := "sourceURL"
def userSessionKey : String := "FeedNews"

structure UserDetails where
  savedSourcesTitle : List String
  savedSourcesURL : List String
  deriving DecidableEq, Repr

-- Each key has a fallback of its own, whether or not the other is present.
def UserDetails.ofJson (json : Dictionary) : UserDetails :=
  { savedSourcesTitle := (json sourceTitleKey).getD ["Banki.ru", "Finam.ru"]
    savedSourcesURL := (json sourceURLKey).getD [getBankiURlString, getFinamURlString] }

def saveSources (userDefault : UserDefaults) (sourcesTitle sourcesURL : List String) :
    UserDefaults :=
  userDefault.set (.dictionary fun key =>
    if key = sourceTitleKey then some sourcesTitle
    else if key = sourceURLKey then some sourcesURL
    else none) userSessionKey

/-- `(userDefault.value(forKey: userSessionKey) as? [String: [String]]) ?? [:]`. -/
def savedDictionary (userDefault : UserDefaults) : Dictionary :=
  ((userDefault.value userSessionKey).bind StoredValue.asDictionary).getD fun _ => none

def getSourcesTitle (userDefault : UserDefaults) : List String :=
  (UserDetails.ofJson (savedDictionary userDefault)).savedSourcesTitle

def getSourcesURL (userDefault : UserDefaults) : List String :=
  (UserDetails.ofJson (savedDictionary userDefault)).savedSourcesURL

def clearUserData (userDefault : UserDefaults) : UserDefaults :=
  userDefault.removeObject userSessionKey

@[simp] theorem savedDictionary_saveSources_title (d : UserDefaults) (titles urls : List String) :
    savedDictionary (saveSources d titles urls) sourceTitleKey = some titles := by
  simp [savedDictionary, saveSources, UserDefaults.value, UserDefaults.set,
    StoredValue.asDictionary]

@[simp] theorem savedDictionary_saveSources_url (d : UserDefaults) (titles urls : List String) :
    savedDictionary (saveSources d titles urls) sourceURLKey = some urls := by
  simp [savedDictionary, saveSources, UserDefaults.value, UserDefaults.set,
    StoredValue.asDictionary, sourceURLKey, sourceTitleKey]

@[simp] theorem getSourcesTitle_saveSources (d : UserDefaults) (titles urls : List String) :
    getSourcesTitle (saveSources d titles urls) = titles := by
  simp [getSourcesTitle, UserDetails.ofJson]

@[simp] theorem getSourcesURL_saveSources (d : UserDefaults) (titles urls : List String) :
    getSourcesURL (saveSources d titles urls) = urls := by
  simp [getSourcesURL, UserDetails.ofJson]

theorem getSources_of_absent {d : UserDefaults} (absent : d.value userSessionKey = none) :
    getSourcesTitle d = ["Banki.ru", "Finam.ru"] ∧
      getSourcesURL d = [getBankiURlString, getFinamURlString] := by
  simp [getSourcesTitle, getSourcesURL, savedDictionary, absent, UserDetails.ofJson]

@[simp] theorem value_clearUserData (d : UserDefaults) :
    (clearUserData d).value userSessionKey = none := by
  simp [clearUserData, UserDefaults.removeObject, UserDefaults.value]

end UserDefaultManager

end TheNews.UserDefault
