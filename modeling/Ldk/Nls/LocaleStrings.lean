import Ldk.Environment.State

/-!
# The strings of a locale

`LdkpGetLocaleString` of `winnls.c`, with the table of the locales that it knows.

- A string is the list of its characters, without the sign that ends it; `none` stands for `NULL`.
- The names of the locales (`LdkpGetLocaleName`) are a parameter.
-/

namespace Ldk.Nls

/-! ## Types of strings -/

@[match_pattern] abbrev localeSLocalizedDisplayName : Nat := 0x02
@[match_pattern] abbrev localeSAbbrevLangName : Nat := 0x03
@[match_pattern] abbrev localeSNativeLanguageName : Nat := 0x04
@[match_pattern] abbrev localeSLocalizedCountryName : Nat := 0x06
@[match_pattern] abbrev localeSAbbrevCtryName : Nat := 0x07
@[match_pattern] abbrev localeSNativeCountryName : Nat := 0x08
@[match_pattern] abbrev localeSList : Nat := 0x0c
@[match_pattern] abbrev localeSDecimal : Nat := 0x0e
@[match_pattern] abbrev localeSThousand : Nat := 0x0f
@[match_pattern] abbrev localeSGrouping : Nat := 0x10
@[match_pattern] abbrev localeSNativeDigits : Nat := 0x13
@[match_pattern] abbrev localeSCurrency : Nat := 0x14
@[match_pattern] abbrev localeSIntlSymbol : Nat := 0x15
@[match_pattern] abbrev localeSMonDecimalSep : Nat := 0x16
@[match_pattern] abbrev localeSMonThousandSep : Nat := 0x17
@[match_pattern] abbrev localeSMonGrouping : Nat := 0x18
@[match_pattern] abbrev localeSDate : Nat := 0x1d
@[match_pattern] abbrev localeSTime : Nat := 0x1e
@[match_pattern] abbrev localeSShortDate : Nat := 0x1f
@[match_pattern] abbrev localeSLongDate : Nat := 0x20
@[match_pattern] abbrev localeSAm : Nat := 0x28
@[match_pattern] abbrev localeSPm : Nat := 0x29
@[match_pattern] abbrev localeSDayName1 : Nat := 0x2a
@[match_pattern] abbrev localeSDayName7 : Nat := 0x30
@[match_pattern] abbrev localeSAbbrevDayName1 : Nat := 0x31
@[match_pattern] abbrev localeSAbbrevDayName7 : Nat := 0x37
@[match_pattern] abbrev localeSMonthName1 : Nat := 0x38
@[match_pattern] abbrev localeSMonthName12 : Nat := 0x43
@[match_pattern] abbrev localeSAbbrevMonthName1 : Nat := 0x44
@[match_pattern] abbrev localeSAbbrevMonthName12 : Nat := 0x4f
@[match_pattern] abbrev localeSPositiveSign : Nat := 0x50
@[match_pattern] abbrev localeSNegativeSign : Nat := 0x51
@[match_pattern] abbrev localeSIso639LangName : Nat := 0x59
@[match_pattern] abbrev localeSIso3166CtryName : Nat := 0x5a
@[match_pattern] abbrev localeSName : Nat := 0x5c
@[match_pattern] abbrev localeSDuration : Nat := 0x5d
@[match_pattern] abbrev localeSShortestDayName1 : Nat := 0x60
@[match_pattern] abbrev localeSShortestDayName7 : Nat := 0x66
@[match_pattern] abbrev localeSIso639LangName2 : Nat := 0x67
@[match_pattern] abbrev localeSIso3166CtryName2 : Nat := 0x68
@[match_pattern] abbrev localeSNan : Nat := 0x69
@[match_pattern] abbrev localeSPosInfinity : Nat := 0x6a
@[match_pattern] abbrev localeSNegInfinity : Nat := 0x6b
@[match_pattern] abbrev localeSScripts : Nat := 0x6c
@[match_pattern] abbrev localeSParent : Nat := 0x6d
@[match_pattern] abbrev localeSConsoleFallbackName : Nat := 0x6e
@[match_pattern] abbrev localeSLocalizedLanguageName : Nat := 0x6f
@[match_pattern] abbrev localeSEnglishDisplayName : Nat := 0x72
@[match_pattern] abbrev localeSNativeDisplayName : Nat := 0x73
@[match_pattern] abbrev localeSPercent : Nat := 0x76
@[match_pattern] abbrev localeSPermille : Nat := 0x77
@[match_pattern] abbrev localeSMonthDay : Nat := 0x78
@[match_pattern] abbrev localeSShortTime : Nat := 0x79
@[match_pattern] abbrev localeSOpenTypeLanguageTag : Nat := 0x7a
@[match_pattern] abbrev localeSSortLocale : Nat := 0x7b
@[match_pattern] abbrev localeSShortestAm : Nat := 0x7e
@[match_pattern] abbrev localeSShortestPm : Nat := 0x7f
@[match_pattern] abbrev localeSEnglishLanguageName : Nat := 0x1001
@[match_pattern] abbrev localeSEnglishCountryName : Nat := 0x1002
@[match_pattern] abbrev localeSTimeFormat : Nat := 0x1003
@[match_pattern] abbrev localeSYearMonth : Nat := 0x1006
@[match_pattern] abbrev localeSMonthName13 : Nat := 0x100e
@[match_pattern] abbrev localeSAbbrevMonthName13 : Nat := 0x100f
@[match_pattern] abbrev localeSSortName : Nat := 0x1013

/-! ## Tables -/

/-- A literal of wide characters. -/
def wide (s : String) : List WCHAR := s.toList.map fun c => UInt16.ofNat c.toNat

/-- `LDKP_LOCALE_DATA`, its strings. -/
structure LdkpLocaleData where
  locale : Nat
  displayName : List WCHAR
  languageName : List WCHAR
  abbreviatedLanguageName : List WCHAR
  iso639LanguageName : List WCHAR
  iso639LanguageName2 : List WCHAR
  countryName : List WCHAR
  abbreviatedCountryName : List WCHAR
  iso3166CountryName : List WCHAR
  iso3166CountryName2 : List WCHAR
  listSeparator : List WCHAR
  decimalSeparator : List WCHAR
  thousandSeparator : List WCHAR
  grouping : List WCHAR
  monetaryDecimalSeparator : List WCHAR
  monetaryThousandSeparator : List WCHAR
  monetaryGrouping : List WCHAR
  currencySymbol : List WCHAR
  internationalCurrencySymbol : List WCHAR
  shortDate : List WCHAR
  longDate : List WCHAR
  timeFormat : List WCHAR
  shortTime : List WCHAR
  yearMonth : List WCHAR
  duration : List WCHAR
  dateSeparator : List WCHAR
  timeSeparator : List WCHAR
  amDesignator : List WCHAR
  pmDesignator : List WCHAR
  scripts : List WCHAR
  parent : List WCHAR

/-- The names of the days and the months of a locale. -/
structure CalendarNames where
  activeLongDays : Vector (List WCHAR) 7
  activeShortDays : Vector (List WCHAR) 7
  activeShortestDays : Vector (List WCHAR) 7
  activeLongMonths : Vector (List WCHAR) 12
  activeShortMonths : Vector (List WCHAR) 12

def longDays : Vector (List WCHAR) 7 := #v[
  wide "Monday", wide "Tuesday", wide "Wednesday", wide "Thursday", wide "Friday",
  wide "Saturday", wide "Sunday"]

def shortDays : Vector (List WCHAR) 7 := #v[
  wide "Mon", wide "Tue", wide "Wed", wide "Thu", wide "Fri", wide "Sat", wide "Sun"]

def shortestDays : Vector (List WCHAR) 7 := #v[
  wide "M", wide "T", wide "W", wide "T", wide "F", wide "S", wide "S"]

def longMonths : Vector (List WCHAR) 12 := #v[
  wide "January", wide "February", wide "March", wide "April", wide "May", wide "June",
  wide "July", wide "August", wide "September", wide "October", wide "November", wide "December"]

def shortMonths : Vector (List WCHAR) 12 := #v[
  wide "Jan", wide "Feb", wide "Mar", wide "Apr", wide "May", wide "Jun", wide "Jul", wide "Aug",
  wide "Sep", wide "Oct", wide "Nov", wide "Dec"]

def germanLongDays : Vector (List WCHAR) 7 := #v[
  wide "Montag", wide "Dienstag", wide "Mittwoch", wide "Donnerstag", wide "Freitag",
  wide "Samstag", wide "Sonntag"]

def germanShortDays : Vector (List WCHAR) 7 := #v[
  wide "Mo", wide "Di", wide "Mi", wide "Do", wide "Fr", wide "Sa", wide "So"]

def germanShortestDays : Vector (List WCHAR) 7 := #v[
  wide "M", wide "D", wide "M", wide "D", wide "F", wide "S", wide "S"]

def germanLongMonths : Vector (List WCHAR) 12 := #v[
  wide "Januar", wide "Februar", wide "M\u00e4rz", wide "April", wide "Mai", wide "Juni",
  wide "Juli", wide "August", wide "September", wide "Oktober", wide "November", wide "Dezember"]

def germanShortMonths : Vector (List WCHAR) 12 := #v[
  wide "Jan", wide "Feb", wide "M\u00e4r", wide "Apr", wide "Mai", wide "Jun", wide "Jul",
  wide "Aug", wide "Sep", wide "Okt", wide "Nov", wide "Dez"]

def koreanLongDays : Vector (List WCHAR) 7 := #v[
  wide "\uc6d4\uc694\uc77c", wide "\ud654\uc694\uc77c", wide "\uc218\uc694\uc77c",
  wide "\ubaa9\uc694\uc77c", wide "\uae08\uc694\uc77c", wide "\ud1a0\uc694\uc77c",
  wide "\uc77c\uc694\uc77c"]

def koreanShortDays : Vector (List WCHAR) 7 := #v[
  wide "\uc6d4", wide "\ud654", wide "\uc218", wide "\ubaa9", wide "\uae08", wide "\ud1a0",
  wide "\uc77c"]

def koreanLongMonths : Vector (List WCHAR) 12 := #v[
  wide "1\uc6d4", wide "2\uc6d4", wide "3\uc6d4", wide "4\uc6d4", wide "5\uc6d4", wide "6\uc6d4",
  wide "7\uc6d4", wide "8\uc6d4", wide "9\uc6d4", wide "10\uc6d4", wide "11\uc6d4",
  wide "12\uc6d4"]

def chineseLongDays : Vector (List WCHAR) 7 := #v[
  wide "\u661f\u671f\u4e00", wide "\u661f\u671f\u4e8c", wide "\u661f\u671f\u4e09",
  wide "\u661f\u671f\u56db", wide "\u661f\u671f\u4e94", wide "\u661f\u671f\u516d",
  wide "\u661f\u671f\u65e5"]

def chineseShortDays : Vector (List WCHAR) 7 := #v[
  wide "\u5468\u4e00", wide "\u5468\u4e8c", wide "\u5468\u4e09", wide "\u5468\u56db",
  wide "\u5468\u4e94", wide "\u5468\u516d", wide "\u5468\u65e5"]

def chineseShortestDays : Vector (List WCHAR) 7 := #v[
  wide "\u4e00", wide "\u4e8c", wide "\u4e09", wide "\u56db", wide "\u4e94", wide "\u516d",
  wide "\u65e5"]

def chineseLongMonths : Vector (List WCHAR) 12 := #v[
  wide "\u4e00\u6708", wide "\u4e8c\u6708", wide "\u4e09\u6708", wide "\u56db\u6708",
  wide "\u4e94\u6708", wide "\u516d\u6708", wide "\u4e03\u6708", wide "\u516b\u6708",
  wide "\u4e5d\u6708", wide "\u5341\u6708", wide "\u5341\u4e00\u6708", wide "\u5341\u4e8c\u6708"]

def japaneseLongDays : Vector (List WCHAR) 7 := #v[
  wide "\u6708\u66dc\u65e5", wide "\u706b\u66dc\u65e5", wide "\u6c34\u66dc\u65e5",
  wide "\u6728\u66dc\u65e5", wide "\u91d1\u66dc\u65e5", wide "\u571f\u66dc\u65e5",
  wide "\u65e5\u66dc\u65e5"]

def japaneseShortDays : Vector (List WCHAR) 7 := #v[
  wide "\u6708", wide "\u706b", wide "\u6c34", wide "\u6728", wide "\u91d1", wide "\u571f",
  wide "\u65e5"]

def japaneseLongMonths : Vector (List WCHAR) 12 := #v[
  wide "1\u6708", wide "2\u6708", wide "3\u6708", wide "4\u6708", wide "5\u6708", wide "6\u6708",
  wide "7\u6708", wide "8\u6708", wide "9\u6708", wide "10\u6708", wide "11\u6708",
  wide "12\u6708"]

def russianLongDays : Vector (List WCHAR) 7 := #v[
  wide "\u043f\u043e\u043d\u0435\u0434\u0435\u043b\u044c\u043d\u0438\u043a",
  wide "\u0432\u0442\u043e\u0440\u043d\u0438\u043a", wide "\u0441\u0440\u0435\u0434\u0430",
  wide "\u0447\u0435\u0442\u0432\u0435\u0440\u0433",
  wide "\u043f\u044f\u0442\u043d\u0438\u0446\u0430",
  wide "\u0441\u0443\u0431\u0431\u043e\u0442\u0430",
  wide "\u0432\u043e\u0441\u043a\u0440\u0435\u0441\u0435\u043d\u044c\u0435"]

def russianShortDays : Vector (List WCHAR) 7 := #v[
  wide "\u043f\u043d", wide "\u0432\u0442", wide "\u0441\u0440", wide "\u0447\u0442",
  wide "\u043f\u0442", wide "\u0441\u0431", wide "\u0432\u0441"]

def russianLongMonths : Vector (List WCHAR) 12 := #v[
  wide "\u042f\u043d\u0432\u0430\u0440\u044c", wide "\u0424\u0435\u0432\u0440\u0430\u043b\u044c",
  wide "\u041c\u0430\u0440\u0442", wide "\u0410\u043f\u0440\u0435\u043b\u044c",
  wide "\u041c\u0430\u0439", wide "\u0418\u044e\u043d\u044c", wide "\u0418\u044e\u043b\u044c",
  wide "\u0410\u0432\u0433\u0443\u0441\u0442",
  wide "\u0421\u0435\u043d\u0442\u044f\u0431\u0440\u044c",
  wide "\u041e\u043a\u0442\u044f\u0431\u0440\u044c", wide "\u041d\u043e\u044f\u0431\u0440\u044c",
  wide "\u0414\u0435\u043a\u0430\u0431\u0440\u044c"]

def russianShortMonths : Vector (List WCHAR) 12 := #v[
  wide "\u044f\u043d\u0432.", wide "\u0444\u0435\u0432\u0440.", wide "\u043c\u0430\u0440.",
  wide "\u0430\u043f\u0440.", wide "\u043c\u0430\u0439", wide "\u0438\u044e\u043d.",
  wide "\u0438\u044e\u043b.", wide "\u0430\u0432\u0433.", wide "\u0441\u0435\u043d\u0442.",
  wide "\u043e\u043a\u0442.", wide "\u043d\u043e\u044f\u0431.", wide "\u0434\u0435\u043a."]

/-- `LdkpLocaleData` -/
def ldkpLocaleData : Vector LdkpLocaleData 7 := #v[
  ⟨0x0409, wide "English (United States)", wide "English", wide "ENU", wide "en", wide "eng",
    wide "United States", wide "USA", wide "US", wide "USA", wide ",", wide ".", wide ",",
    wide "3;0", wide ".", wide ",", wide "3;0", wide "$", wide "USD", wide "M/d/yyyy",
    wide "dddd, MMMM d, yyyy", wide "h:mm:ss tt", wide "h:mm tt", wide "MMMM yyyy",
    wide "h:mm:ss", wide "/", wide ":", wide "AM", wide "PM", wide "Latn;", wide "en"⟩,
  ⟨0x0407, wide "German (Germany)", wide "German", wide "DEU", wide "de", wide "deu",
    wide "Germany", wide "DEU", wide "DE", wide "DEU", wide ";", wide ",", wide ".", wide "3;0",
    wide ",", wide ".", wide "3;0", wide "\u20ac", wide "EUR", wide "dd.MM.yyyy",
    wide "dddd, d. MMMM yyyy", wide "HH:mm:ss", wide "HH:mm", wide "MMMM yyyy", wide "HH:mm:ss",
    wide ".", wide ":", wide "", wide "", wide "Latn;", wide "de"⟩,
  ⟨0x0809, wide "English (United Kingdom)", wide "English", wide "ENG", wide "en", wide "eng",
    wide "United Kingdom", wide "GBR", wide "GB", wide "GBR", wide ",", wide ".", wide ",",
    wide "3;0", wide ".", wide ",", wide "3;0", wide "\u00a3", wide "GBP", wide "dd/MM/yyyy",
    wide "dd MMMM yyyy", wide "HH:mm:ss", wide "HH:mm", wide "MMMM yyyy", wide "HH:mm:ss",
    wide "/", wide ":", wide "am", wide "pm", wide "Latn;", wide "en"⟩,
  ⟨0x0412, wide "Korean (Korea)", wide "Korean", wide "KOR", wide "ko", wide "kor",
    wide "Korea", wide "KOR", wide "KR", wide "KOR", wide ",", wide ".", wide ",", wide "3;0",
    wide ".", wide ",", wide "3;0", wide "\u20a9", wide "KRW", wide "yyyy-MM-dd",
    wide "yyyy'\ub144' M'\uc6d4' d'\uc77c' dddd", wide "tt h:mm:ss", wide "tt h:mm",
    wide "yyyy'\ub144' M'\uc6d4'", wide "h:mm:ss", wide "-", wide ":", wide "\uc624\uc804",
    wide "\uc624\ud6c4", wide "Hang;Hani;Kore;", wide "ko"⟩,
  ⟨0x0804, wide "Chinese (Simplified, China)", wide "Chinese", wide "CHS", wide "zh",
    wide "zho", wide "China", wide "CHN", wide "CN", wide "CHN", wide ",", wide ".", wide ",",
    wide "3;0", wide ".", wide ",", wide "3;0", wide "\u00a5", wide "CNY", wide "yyyy/M/d",
    wide "yyyy'\u5e74'M'\u6708'd'\u65e5'", wide "H:mm:ss", wide "H:mm",
    wide "yyyy'\u5e74'M'\u6708'", wide "H:mm:ss", wide "/", wide ":", wide "\u4e0a\u5348",
    wide "\u4e0b\u5348", wide "Hani;Hans;", wide "zh-Hans"⟩,
  ⟨0x0411, wide "Japanese (Japan)", wide "Japanese", wide "JPN", wide "ja", wide "jpn",
    wide "Japan", wide "JPN", wide "JP", wide "JPN", wide ",", wide ".", wide ",", wide "3;0",
    wide ".", wide ",", wide "3;0", wide "\u00a5", wide "JPY", wide "yyyy/MM/dd",
    wide "yyyy'\u5e74'M'\u6708'd'\u65e5'", wide "H:mm:ss", wide "H:mm",
    wide "yyyy'\u5e74'M'\u6708'", wide "H:mm:ss", wide "/", wide ":", wide "\u5348\u524d",
    wide "\u5348\u5f8c", wide "Hani;Hira;Jpan;Kana;", wide "ja"⟩,
  ⟨0x0419, wide "Russian (Russia)", wide "Russian", wide "RUS", wide "ru", wide "rus",
    wide "Russia", wide "RUS", wide "RU", wide "RUS", wide ";", wide ",", wide "\u00a0",
    wide "3;0", wide ",", wide "\u00a0", wide "3;0", wide "\u20bd", wide "RUB",
    wide "dd.MM.yyyy", wide "d MMMM yyyy '\u0433.'", wide "H:mm:ss", wide "H:mm",
    wide "MMMM yyyy", wide "H:mm:ss", wide ".", wide ":", wide "", wide "", wide "Cyrl;",
    wide "ru"⟩]

/-- `LdkpGetLocaleData` -/
def ldkpGetLocaleData (locale : Nat) : LdkpLocaleData :=
  (ldkpLocaleData.toList.find? fun data => data.locale = locale % 2 ^ 16).getD ldkpLocaleData[0]

/-- The names that `LdkpGetLocaleString` uses for the locale of an entry. -/
def calendarNames (locale : Nat) : CalendarNames :=
  if locale = 0x0407 then
    ⟨germanLongDays, germanShortDays, germanShortestDays, germanLongMonths, germanShortMonths⟩
  else if locale = 0x0412 then
    ⟨koreanLongDays, koreanShortDays, koreanShortDays, koreanLongMonths, koreanLongMonths⟩
  else if locale = 0x0804 then
    ⟨chineseLongDays, chineseShortDays, chineseShortestDays, chineseLongMonths,
      chineseLongMonths⟩
  else if locale = 0x0411 then
    ⟨japaneseLongDays, japaneseShortDays, japaneseShortDays, japaneseLongMonths,
      japaneseLongMonths⟩
  else if locale = 0x0419 then
    ⟨russianLongDays, russianShortDays, russianShortDays, russianLongMonths, russianShortMonths⟩
  else ⟨longDays, shortDays, shortestDays, longMonths, shortMonths⟩

/-- `LdkpGetNativeDisplayName` -/
def ldkpGetNativeDisplayName (data : LdkpLocaleData) : List WCHAR :=
  match data.locale with
  | 0x0412 => wide "\ud55c\uad6d\uc5b4(\ub300\ud55c\ubbfc\uad6d)"
  | 0x0804 => wide "\u4e2d\u6587(\u4e2d\u56fd)"
  | 0x0411 => wide "\u65e5\u672c\u8a9e (\u65e5\u672c)"
  | 0x0419 =>
    wide "\u0440\u0443\u0441\u0441\u043a\u0438\u0439 (\u0420\u043e\u0441\u0441\u0438\u044f)"
  | _ => data.displayName

/-- `LdkpGetNativeLanguageName` -/
def ldkpGetNativeLanguageName (data : LdkpLocaleData) : List WCHAR :=
  match data.locale with
  | 0x0412 => wide "\ud55c\uad6d\uc5b4"
  | 0x0804 => wide "\u4e2d\u6587(\u7b80\u4f53)"
  | 0x0411 => wide "\u65e5\u672c\u8a9e"
  | 0x0419 => wide "\u0440\u0443\u0441\u0441\u043a\u0438\u0439"
  | _ => data.languageName

/-- `LdkpGetNativeCountryName` -/
def ldkpGetNativeCountryName (data : LdkpLocaleData) : List WCHAR :=
  match data.locale with
  | 0x0412 => wide "\ub300\ud55c\ubbfc\uad6d"
  | 0x0804 => wide "\u4e2d\u56fd"
  | 0x0411 => wide "\u65e5\u672c"
  | 0x0419 => wide "\u0420\u043e\u0441\u0441\u0438\u044f"
  | _ => data.countryName

/-- The picture of `LOCALE_SMONTHDAY`. -/
def monthDay (data : LdkpLocaleData) : List WCHAR :=
  match data.locale with
  | 0x0412 => wide "M'\uc6d4' d'\uc77c'"
  | 0x0804 | 0x0411 => wide "M'\u6708'd'\u65e5'"
  | 0x0419 => wide "d MMMM"
  | _ => wide "MMMM d"

/-- The tag of `LOCALE_SOPENTYPELANGUAGETAG`. -/
def openTypeLanguageTag (data : LdkpLocaleData) : List WCHAR :=
  match data.locale with
  | 0x0409 | 0x0809 => wide "ENG "
  | 0x0407 => wide "DEU "
  | 0x0412 => wide "KOR "
  | 0x0804 => wide "ZHS "
  | 0x0411 => wide "JAN "
  | 0x0419 => wide "RUS "
  | _ => wide "latn"

/-! ## Strings -/

-- `LdkpGetLocaleName`
variable (localeName : Nat → Option (List WCHAR))

/-- The strings that `LdkpGetLocaleString` has besides the names of the days and the months. -/
def otherString (data : LdkpLocaleData) (locale lcType : Nat) : Option (List WCHAR) :=
  match lcType with
  | localeSName | localeSSortLocale => localeName locale
  | localeSLocalizedDisplayName | localeSEnglishDisplayName => some data.displayName
  | localeSNativeDisplayName => some (ldkpGetNativeDisplayName data)
  | localeSLocalizedLanguageName | localeSEnglishLanguageName => some data.languageName
  | localeSNativeLanguageName => some (ldkpGetNativeLanguageName data)
  | localeSAbbrevLangName => some data.abbreviatedLanguageName
  | localeSIso639LangName => some data.iso639LanguageName
  | localeSIso639LangName2 => some data.iso639LanguageName2
  | localeSLocalizedCountryName | localeSEnglishCountryName => some data.countryName
  | localeSNativeCountryName => some (ldkpGetNativeCountryName data)
  | localeSAbbrevCtryName => some data.abbreviatedCountryName
  | localeSIso3166CtryName => some data.iso3166CountryName
  | localeSIso3166CtryName2 => some data.iso3166CountryName2
  | localeSList => some data.listSeparator
  | localeSDecimal => some data.decimalSeparator
  | localeSMonDecimalSep => some data.monetaryDecimalSeparator
  | localeSThousand => some data.thousandSeparator
  | localeSMonThousandSep => some data.monetaryThousandSeparator
  | localeSGrouping => some data.grouping
  | localeSMonGrouping => some data.monetaryGrouping
  | localeSNativeDigits => some (wide "0123456789")
  | localeSCurrency => some data.currencySymbol
  | localeSIntlSymbol => some data.internationalCurrencySymbol
  | localeSPositiveSign | localeSSortName => some []
  | localeSNegativeSign => some (wide "-")
  | localeSShortDate => some data.shortDate
  | localeSLongDate => some data.longDate
  | localeSTimeFormat => some data.timeFormat
  | localeSShortTime => some data.shortTime
  | localeSYearMonth => some data.yearMonth
  | localeSMonthName13 | localeSAbbrevMonthName13 => some []
  | localeSDuration => some data.duration
  | localeSDate => some data.dateSeparator
  | localeSTime => some data.timeSeparator
  | localeSAm => some data.amDesignator
  | localeSPm => some data.pmDesignator
  | localeSNan => some (wide "NaN")
  | localeSPosInfinity => some (wide "Infinity")
  | localeSNegInfinity => some (wide "-Infinity")
  | localeSScripts => some data.scripts
  | localeSParent | localeSConsoleFallbackName => some data.parent
  | localeSPercent => some (wide "%")
  | localeSPermille => some (wide "\u2030")
  | localeSMonthDay => some (monthDay data)
  | localeSShortestAm => some (wide "A")
  | localeSShortestPm => some (wide "P")
  | localeSOpenTypeLanguageTag => some (openTypeLanguageTag data)
  | _ => none

/-- `LdkpGetLocaleString` -/
def ldkpGetLocaleString (locale lcType : Nat) : Option (List WCHAR) :=
  let data := ldkpGetLocaleData locale
  let names := calendarNames data.locale
  if localeSDayName1 ≤ lcType ∧ lcType ≤ localeSDayName7 then
    names.activeLongDays[lcType - localeSDayName1]?
  else if localeSAbbrevDayName1 ≤ lcType ∧ lcType ≤ localeSAbbrevDayName7 then
    names.activeShortDays[lcType - localeSAbbrevDayName1]?
  else if localeSShortestDayName1 ≤ lcType ∧ lcType ≤ localeSShortestDayName7 then
    names.activeShortestDays[lcType - localeSShortestDayName1]?
  else if localeSMonthName1 ≤ lcType ∧ lcType ≤ localeSMonthName12 then
    names.activeLongMonths[lcType - localeSMonthName1]?
  else if localeSAbbrevMonthName1 ≤ lcType ∧ lcType ≤ localeSAbbrevMonthName12 then
    names.activeShortMonths[lcType - localeSAbbrevMonthName1]?
  else otherString localeName data locale lcType

/-- `IsValidLocale` -/
def isValidLocale (locale : Nat) : Bool := locale < 2 ^ 20 && (localeName locale).isSome

variable {localeName}

/-- The names of the months are there. -/
theorem ldkpGetLocaleString_month {locale lcType : Nat} (hfirst : localeSMonthName1 ≤ lcType)
    (hlast : lcType ≤ localeSAbbrevMonthName12) :
    (ldkpGetLocaleString localeName locale lcType).isSome := by
  unfold localeSMonthName1 at hfirst
  unfold localeSAbbrevMonthName12 at hlast
  unfold ldkpGetLocaleString
  dsimp only [localeSDayName1, localeSDayName7, localeSAbbrevDayName1, localeSAbbrevDayName7,
    localeSShortestDayName1, localeSShortestDayName7, localeSMonthName1, localeSMonthName12,
    localeSAbbrevMonthName1, localeSAbbrevMonthName12]
  rw [if_neg (by omega), if_neg (by omega), if_neg (by omega)]
  by_cases hlong : lcType ≤ 67
  · have hindex : lcType - 56 < 12 := by omega
    rw [if_pos ⟨hfirst, hlong⟩]
    simp [hindex]
  · have hindex : lcType - 68 < 12 := by omega
    rw [if_neg (fun h => hlong h.2), if_pos ⟨by omega, hlast⟩]
    simp [hindex]

end Ldk.Nls
